import Vmlab.Library.Bytes

/-!
# One's complement sums

The sum of sixteen-bit words with the carry brought round to the low end. Such a sum is determined by the words' plain
sum, and it is all ones exactly when that is a positive multiple of `0xffff`.
-/

namespace Vmlab.Library

open List

/-- The sixteen-bit words of some bytes, an odd last one filled up with zero. -/
def wordsOf : List UInt8 → List Nat
  | [] => []
  | [last] => [last.toNat * 256]
  | high :: low :: rest => (high.toNat * 256 + low.toNat) :: wordsOf rest

def onesAdd (left right : Nat) : Nat :=
  if left + right < 0x10000 then left + right else left + right - 0xffff

def onesSum (bytes : List UInt8) : Nat := (wordsOf bytes).foldl onesAdd 0

structure Folded (sum folded : Nat) : Prop where
  small : folded ≤ 0xffff
  same : folded % 0xffff = sum % 0xffff
  positive : 0 < folded ↔ 0 < sum

theorem lt_of_mem_wordsOf {bytes : List UInt8} {word : Nat} (mem : word ∈ wordsOf bytes) : word < 0x10000 := by
  induction bytes using wordsOf.induct with
  | case1 => cases mem
  | case2 last =>
    have small := last.toNat_lt
    cases mem_singleton.mp mem
    omega
  | case3 high low rest ih =>
    have small := high.toNat_lt
    have small' := low.toNat_lt
    rcases mem_cons.mp mem with rfl | later
    · omega
    · exact ih later

theorem Folded.onesAdd {sum folded word : Nat} (before : Folded sum folded) (small : word < 0x10000) :
    Folded (sum + word) (onesAdd folded word) := by
  have bound := before.small
  have same := before.same
  have positive := before.positive
  rw [Library.onesAdd]
  split
  · exact ⟨by omega, by omega, by omega⟩
  · exact ⟨by omega, by omega, by omega⟩

theorem folded_foldl_onesAdd {words : List Nat} (small : ∀ word ∈ words, word < 0x10000) {sum folded : Nat}
    (before : Folded sum folded) : Folded (sum + words.sum) (words.foldl onesAdd folded) := by
  induction words generalizing sum folded with
  | nil => exact before
  | cons word words ih =>
    rw [sum_cons, ← Nat.add_assoc, foldl_cons]
    exact ih (fun later mem => small later (mem_cons_of_mem _ mem)) (before.onesAdd (small word mem_cons_self))

theorem onesSum_eq_full {bytes : List UInt8} :
    onesSum bytes = 0xffff ↔ 0 < (wordsOf bytes).sum ∧ (wordsOf bytes).sum % 0xffff = 0 := by
  have folded := folded_foldl_onesAdd (fun _ => @lt_of_mem_wordsOf bytes _) (⟨by decide, rfl, Iff.rfl⟩ : Folded 0 0)
  rw [Nat.zero_add] at folded
  have small := folded.small
  have same := folded.same
  have positive := folded.positive
  rw [onesSum]
  omega

end Vmlab.Library
