import Mathlib

/-!
# Serial numbers

Positions in an unbounded stream seen through a counter of `width + 1` bits
that wraps. Two positions less than half the counter's range apart compare as
their numbers do.
-/

namespace Vmlab.Library

instance linearOrderBitVec {width : Nat} : LinearOrder (BitVec width) where
  le_refl := BitVec.le_refl
  le_trans _ _ _ := BitVec.le_trans
  le_antisymm _ _ := BitVec.le_antisymm
  le_total := BitVec.le_total
  lt_iff_le_not_ge left right := by
    simp only [BitVec.le_def, BitVec.lt_def]
    omega
  toDecidableLE := inferInstance
  toDecidableEq := inferInstance
  toDecidableLT := inferInstance

variable {width : Nat} {base : BitVec (width + 1)} {left right : Nat}

def serial (base : BitVec (width + 1)) (position : Nat) : BitVec (width + 1) :=
  base + BitVec.ofNat (width + 1) position

def serialLe (left right : BitVec (width + 1)) : Bool := (right - left).toNat < 2 ^ width

section

variable (base : BitVec (width + 1))

@[simp] theorem serial_zero : serial base 0 = base := by
  simp [serial]

theorem serial_add (position step : Nat) :
    serial base position + BitVec.ofNat (width + 1) step = serial base (position + step) := by
  rw [serial, serial, BitVec.ofNat_add, BitVec.add_assoc]

theorem serial_sub_base (position : Nat) :
    (serial base position - base).toNat = position % 2 ^ (width + 1) := by
  rw [serial, BitVec.add_comm, BitVec.add_sub_cancel, BitVec.toNat_ofNat]

end

theorem serial_sub_of_le (le : left ≤ right) :
    (serial base right - serial base left).toNat = (right - left) % 2 ^ (width + 1) := by
  obtain ⟨step, rfl⟩ := Nat.exists_eq_add_of_le le
  rw [← serial_add, BitVec.add_comm, BitVec.add_sub_cancel, BitVec.toNat_ofNat, Nat.add_sub_cancel_left]

theorem serial_sub_eq (le : left ≤ right) (near : right - left < 2 ^ (width + 1)) :
    (serial base right - serial base left).toNat = right - left := by
  rw [serial_sub_of_le le, Nat.mod_eq_of_lt near]

theorem serialLe_of_le (base : BitVec (width + 1)) (le : left ≤ right) (near : right < left + 2 ^ width) :
    serialLe (serial base left) (serial base right) = true := by
  rw [serialLe, serial_sub_eq le (by omega)]
  exact decide_eq_true (by omega)

theorem serialLe_of_lt (base : BitVec (width + 1)) (lt : right < left) (near : left ≤ right + 2 ^ width) :
    serialLe (serial base left) (serial base right) = false := by
  have back : serial base right - serial base left = -(serial base left - serial base right) := by
    rw [BitVec.neg_sub, BitVec.add_comm, BitVec.sub_eq_add_neg]
  have distance : (serial base left - serial base right).toNat = left - right :=
    serial_sub_eq (Nat.le_of_lt lt) (by omega)
  rw [serialLe, back, BitVec.toNat_neg, distance, Nat.mod_eq_of_lt (by omega)]
  exact decide_eq_false (by omega)

theorem serial_injective (near : left < right + 2 ^ (width + 1)) (near' : right < left + 2 ^ (width + 1))
    (same : serial base left = serial base right) : left = right := by
  rcases Nat.le_total left right with le | le
  · have zero := @serial_sub_eq width base left right le (by omega)
    rw [same, BitVec.sub_self, BitVec.toNat_zero] at zero
    omega
  have zero := @serial_sub_eq width base right left le (by omega)
  rw [same, BitVec.sub_self, BitVec.toNat_zero] at zero
  omega

end Vmlab.Library
