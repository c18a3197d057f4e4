import Mathlib

/-!
# Tag, length, value

A sequence of triples with a one-byte length, up to an end tag. Reading is
strict: a value has to be there in full, and nothing follows the end tag.
-/

namespace Vmlab.Library.Tlv

open List

def triple (tag : UInt8) (value : List UInt8) : List UInt8 := tag :: UInt8.ofNat value.length :: value

def decode (stop : UInt8) : Nat → List UInt8 → Option (List (UInt8 × List UInt8))
  | fuel + 1, tag :: rest =>
    if tag = stop then if rest = [] then some [] else none
    else
      match rest with
      | [] => none
      | length :: body =>
        if body.length < length.toNat then none
        else (decode stop fuel (body.drop length.toNat)).map ((tag, body.take length.toNat) :: ·)
  | _, _ => none

variable {stop : UInt8}

theorem length_le_triples (items : List (UInt8 × List UInt8)) :
    items.length ≤ (items.flatMap fun item => triple item.1 item.2).length := by
  induction items with
  | nil => exact Nat.le_refl _
  | cons item items ih =>
    simp only [flatMap_cons, length_append, length_cons, triple] at ih ⊢
    omega

theorem decode_triples {items : List (UInt8 × List UInt8)} {fuel : Nat}
    (short : ∀ item ∈ items, item.1 ≠ stop ∧ item.2.length ≤ 255) (enough : items.length < fuel) :
    decode stop fuel (items.flatMap (fun item => triple item.1 item.2) ++ [stop]) = some items := by
  induction items generalizing fuel with
  | nil =>
    obtain ⟨fuel, rfl⟩ : ∃ rest, fuel = rest + 1 := ⟨fuel - 1, by simp at enough; omega⟩
    simp [decode]
  | cons item items ih =>
    obtain ⟨fuel, rfl⟩ : ∃ rest, fuel = rest + 1 := ⟨fuel - 1, by simp at enough; omega⟩
    obtain ⟨tag, small⟩ := short item mem_cons_self
    have length : (UInt8.ofNat item.2.length).toNat = item.2.length := by
      rw [UInt8.toNat_ofNat']
      omega
    have rest := ih (fun other member => short other (mem_cons_of_mem _ member)) (by simpa using enough)
    simpa [decode, triple, tag, length] using rest

theorem length_le_of_decode {items : List (UInt8 × List UInt8)} {fuel : Nat} {bytes : List UInt8}
    (decoded : decode stop fuel bytes = some items) : ∀ item ∈ items, item.2.length ≤ 255 := by
  fun_induction decode stop fuel bytes generalizing items with
  | case1 => simp_all
  | case2 => simp_all
  | case3 => simp_all
  | case4 => simp_all
  | case5 fuel tag _ length body _ ih =>
    obtain ⟨rest, found, rfl⟩ := Option.map_eq_some_iff.mp decoded
    intro item member
    rcases mem_cons.mp member with rfl | later
    · have bound := length.toNat_lt
      rw [length_take]
      omega
    · exact ih found item later
  | case6 => simp_all

end Vmlab.Library.Tlv
