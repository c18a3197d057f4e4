import Mathlib

/-!
# Byte strings

Big-endian numerals of a fixed width, windows into a byte string, and
in-place replacement of a window.
-/

namespace Vmlab.Library

open List

variable {bytes patch : List UInt8} {start count first : Nat}

def bigEndian (bytes : List UInt8) : Nat := bytes.foldl (fun total byte => total * 256 + byte.toNat) 0

def toBigEndian : Nat → Nat → List UInt8
  | 0, _ => []
  | width + 1, value => toBigEndian width (value / 256) ++ [UInt8.ofNat value]

def window (bytes : List UInt8) (start count : Nat) : List UInt8 := (bytes.drop start).take count

def overwrite (bytes : List UInt8) (start : Nat) (patch : List UInt8) : List UInt8 :=
  bytes.take start ++ patch ++ bytes.drop (start + patch.length)

@[simp] theorem bigEndian_nil : bigEndian [] = 0 := rfl

theorem bigEndian_concat (bytes : List UInt8) (last : UInt8) :
    bigEndian (bytes ++ [last]) = bigEndian bytes * 256 + last.toNat := by
  simp [bigEndian]

theorem bigEndian_zeros (count : Nat) : bigEndian (replicate count 0) = 0 := by
  induction count with
  | zero => rfl
  | succ count ih => rw [replicate_succ', bigEndian_concat, ih]; rfl

@[simp] theorem length_toBigEndian (width value : Nat) : (toBigEndian width value).length = width := by
  induction width generalizing value with
  | zero => rfl
  | succ width ih => simp [toBigEndian, ih]

theorem bigEndian_lt (bytes : List UInt8) : bigEndian bytes < 256 ^ bytes.length := by
  induction bytes using List.reverseRecOn with
  | nil => simp
  | append_singleton bytes last ih =>
    have small := last.toNat_lt
    rw [bigEndian_concat, length_append, length_singleton, Nat.pow_succ]
    omega

theorem bigEndian_toBigEndian_mod (width value : Nat) :
    bigEndian (toBigEndian width value) = value % 256 ^ width := by
  induction width generalizing value with
  | zero => simp [toBigEndian, Nat.mod_one]
  | succ width ih =>
    have low : (UInt8.ofNat value).toNat = value % 256 := UInt8.toNat_ofNat'
    have split : value % 256 ^ (width + 1) = value % 256 + 256 * (value / 256 % 256 ^ width) := by
      rw [Nat.pow_succ, Nat.mul_comm, Nat.mod_mul]
    rw [toBigEndian, bigEndian_concat, ih, low, split]
    ring

theorem bigEndian_toBigEndian {width value : Nat} (fits : value < 256 ^ width) :
    bigEndian (toBigEndian width value) = value := by
  rw [bigEndian_toBigEndian_mod, Nat.mod_eq_of_lt fits]

theorem toBigEndian_bigEndian (bytes : List UInt8) : toBigEndian bytes.length (bigEndian bytes) = bytes := by
  induction bytes using List.reverseRecOn with
  | nil => rfl
  | append_singleton bytes last ih =>
    have small := last.toNat_lt
    have high : (bigEndian bytes * 256 + last.toNat) / 256 = bigEndian bytes := by omega
    have low : UInt8.ofNat (bigEndian bytes * 256 + last.toNat) = last := by
      apply UInt8.toNat_inj.mp
      rw [UInt8.toNat_ofNat']
      omega
    rw [length_append, length_singleton, toBigEndian, bigEndian_concat, high, low, ih]

theorem bigEndian_injective {left right : List UInt8} (same : bigEndian left = bigEndian right)
    (length : left.length = right.length) : left = right := by
  rw [← toBigEndian_bigEndian left, ← toBigEndian_bigEndian right, same, length]

theorem length_window (inside : start + count ≤ bytes.length) : (window bytes start count).length = count := by
  simp only [window, length_take, length_drop]
  omega

theorem length_overwrite (inside : start + patch.length ≤ bytes.length) :
    (overwrite bytes start patch).length = bytes.length := by
  simp only [overwrite, length_append, length_take, length_drop]
  omega

theorem length_overwrite_of_eq {bytes patch : List UInt8} {start size : Nat}
    (length : bytes.length = size) (inside : start + patch.length ≤ size) :
    (overwrite bytes start patch).length = size := by
  subst length
  exact length_overwrite inside

section

variable (bytes : List UInt8)

theorem window_zero (count : Nat) : window bytes 0 count = bytes.take count := by
  simp [window]

theorem drop_eq_window_append (start count : Nat) :
    bytes.drop start = window bytes start count ++ bytes.drop (start + count) := by
  rw [window, ← drop_drop, take_append_drop]

theorem drop_window (start count skip : Nat) :
    (window bytes start count).drop skip = window bytes (start + skip) (count - skip) := by
  rw [window, window, drop_take, drop_drop]

theorem take_append_window (start count : Nat) :
    bytes.take start ++ window bytes start count = bytes.take (start + count) := by
  rw [window, take_add]

end

theorem window_overwrite_self {bytes patch : List UInt8} {start : Nat}
    (inside : start + patch.length ≤ bytes.length) :
    window (overwrite bytes start patch) start patch.length = patch := by
  have before : (bytes.take start).length = start := by
    rw [length_take]
    omega
  rw [window, overwrite, append_assoc, drop_left' before, take_left' rfl]

theorem getElem?_overwrite_of_not_mem {position : Nat} (inside : start + patch.length ≤ bytes.length)
    (outside : position < start ∨ start + patch.length ≤ position) :
    (overwrite bytes start patch)[position]? = bytes[position]? := by
  have before : (bytes.take start).length = start := by
    rw [length_take]
    omega
  rcases outside with left | right
  · rw [overwrite, append_assoc, getElem?_append_left (by omega), getElem?_take_of_lt left]
  rw [overwrite, getElem?_append_right (by simp only [length_append]; omega), getElem?_drop]
  congr 1
  simp only [length_append]
  omega

theorem window_overwrite_of_disjoint
    (inside : start + patch.length ≤ bytes.length) (apart : first + count ≤ start ∨ start + patch.length ≤ first) :
    window (overwrite bytes start patch) first count = window bytes first count := by
  apply ext_getElem?
  intro index
  simp only [window, getElem?_take, getElem?_drop]
  split
  · exact getElem?_overwrite_of_not_mem inside (by omega)
  · rfl

theorem window_drop (bytes : List UInt8) (skip start count : Nat) :
    window (bytes.drop skip) start count = window bytes (skip + start) count := by
  rw [window, window, drop_drop]

theorem window_take {length : Nat} (inside : start + count ≤ length) :
    window (bytes.take length) start count = window bytes start count := by
  rw [window, window, drop_take, take_take, Nat.min_eq_left (by omega)]

theorem getElem?_overwrite_of_mem {position : Nat}
    (inside : start + patch.length ≤ bytes.length) (left : start ≤ position)
    (right : position < start + patch.length) :
    (overwrite bytes start patch)[position]? = patch[position - start]? := by
  have before : (bytes.take start).length = start := by
    rw [length_take]
    omega
  rw [overwrite, append_assoc, getElem?_append_right (by omega), getElem?_append_left (by omega), before]

theorem getElem?_overwrite (inside : start + patch.length ≤ bytes.length) (position : Nat) :
    (overwrite bytes start patch)[position]? =
      if start ≤ position ∧ position < start + patch.length then patch[position - start]? else bytes[position]? := by
  split
  · next within => exact getElem?_overwrite_of_mem inside within.1 within.2
  · next without => exact getElem?_overwrite_of_not_mem inside (by omega)

theorem window_overwrite_inside
    (left : first ≤ start) (right : start + patch.length ≤ first + count) (inside : first + count ≤ bytes.length) :
    window (overwrite bytes start patch) first count = overwrite (window bytes first count) (start - first) patch := by
  have fits : start - first + patch.length ≤ (window bytes first count).length := by
    rw [length_window inside]
    omega
  apply ext_getElem?
  intro index
  rw [getElem?_overwrite fits]
  simp only [window, getElem?_take, getElem?_drop, getElem?_overwrite (by omega : start + patch.length ≤ bytes.length)]
  split
  · split
    · rw [if_pos (by omega), show first + index - start = index - (start - first) by omega]
    · rw [if_neg (by omega)]
  · rw [if_neg (by omega)]

theorem drop_overwrite (left : first ≤ start) (inside : start + patch.length ≤ bytes.length) :
    (overwrite bytes start patch).drop first = overwrite (bytes.drop first) (start - first) patch := by
  have fits : start - first + patch.length ≤ (bytes.drop first).length := by
    rw [length_drop]
    omega
  apply ext_getElem?
  intro index
  rw [getElem?_overwrite fits, getElem?_drop, getElem?_overwrite inside, getElem?_drop]
  by_cases within : start ≤ first + index ∧ first + index < start + patch.length
  · rw [if_pos within, if_pos (by omega), show first + index - start = index - (start - first) by omega]
  · rw [if_neg within, if_neg (by omega)]

theorem drop_overwrite_after {bytes patch : List UInt8} {start first : Nat} (after : start + patch.length ≤ first)
    (inside : start ≤ bytes.length) : (overwrite bytes start patch).drop first = bytes.drop first := by
  obtain ⟨more, rfl⟩ := Nat.exists_eq_add_of_le after
  have size : (bytes.take start ++ patch).length = start + patch.length := by simp [inside]
  rw [← drop_drop, overwrite, drop_left' size, drop_drop]

theorem take_overwrite (before : start + patch.length ≤ count) (inside : start + patch.length ≤ bytes.length) :
    (overwrite bytes start patch).take count = overwrite (bytes.take count) start patch := by
  have fits : start + patch.length ≤ (bytes.take count).length := by
    rw [length_take]
    omega
  apply ext_getElem?
  intro index
  rw [getElem?_overwrite fits, getElem?_take, getElem?_overwrite inside, getElem?_take]
  by_cases within : start ≤ index ∧ index < start + patch.length
  · rw [if_pos within, if_pos (by omega), if_pos within]
  · rw [if_neg within, if_neg within]

theorem overwrite_overwrite {first second : List UInt8} (length : first.length = second.length)
    (inside : start + second.length ≤ bytes.length) :
    overwrite (overwrite bytes start first) start second = overwrite bytes start second := by
  have same : (overwrite bytes start first).length = bytes.length := length_overwrite (by omega)
  apply ext_getElem?
  intro index
  rw [getElem?_overwrite (by omega), getElem?_overwrite inside, getElem?_overwrite (by omega), length]
  split <;> rfl

theorem toBigEndian_add (high low value : Nat) :
    toBigEndian (high + low) value = toBigEndian high (value / 256 ^ low) ++ toBigEndian low value := by
  induction low generalizing value with
  | zero => simp [toBigEndian]
  | succ low ih =>
    have high' : value / 256 / 256 ^ low = value / 256 ^ (low + 1) := by
      rw [Nat.div_div_eq_div_mul, Nat.pow_succ, Nat.mul_comm]
    rw [← Nat.add_assoc, toBigEndian, ih, toBigEndian, high', append_assoc]

theorem toBigEndian_of_dvd {width value : Nat} (divides : 256 ^ width ∣ value) :
    toBigEndian width value = replicate width 0 := by
  induction width generalizing value with
  | zero => rfl
  | succ width ih =>
    obtain ⟨factor, rfl⟩ := divides
    have high : 256 ^ (width + 1) * factor / 256 = 256 ^ width * factor := by
      rw [Nat.pow_succ, Nat.mul_right_comm, Nat.mul_div_cancel _ (by decide)]
    have low : UInt8.ofNat (256 ^ (width + 1) * factor) = 0 := by
      apply UInt8.toNat_inj.mp
      rw [UInt8.toNat_ofNat', Nat.pow_succ, Nat.mul_right_comm]
      exact Nat.mul_mod_left ..
    rw [toBigEndian, high, low, ih ⟨factor, rfl⟩, replicate_succ']

end Vmlab.Library
