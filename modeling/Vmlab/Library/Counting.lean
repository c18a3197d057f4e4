import Mathlib

/-! Occurrences in concatenations, when one part of them changes. -/

namespace Vmlab.Library

open List

variable {α β : Type} [DecidableEq β]

theorem count_flatMap_set {parts : α → List β} {items : List α} {index : Nat} {old : α}
    (found : items[index]? = some old) (new : α) (value : β) :
    ((items.set index new).flatMap parts).count value + (parts old).count value =
      (items.flatMap parts).count value + (parts new).count value := by
  induction items generalizing index with
  | nil => simp at found
  | cons item items ih =>
    cases index with
    | zero =>
      rw [getElem?_cons_zero, Option.some.injEq] at found
      subst found
      simp only [set_cons_zero, flatMap_cons, count_append]
      omega
    | succ index =>
      rw [getElem?_cons_succ] at found
      have rest := ih found
      simp only [set_cons_succ, flatMap_cons, count_append]
      omega

theorem count_flatMap_update [DecidableEq α] {before after : α → List β} {changed : α}
    (same : ∀ item, item ≠ changed → after item = before item) (items : List α) (value : β) :
    (items.flatMap after).count value + items.count changed * (before changed).count value =
      (items.flatMap before).count value + items.count changed * (after changed).count value := by
  induction items with
  | nil => simp
  | cons item items ih =>
    simp only [flatMap_cons, count_append]
    by_cases equal : item = changed
    · subst equal
      rw [count_cons_self, Nat.add_mul, Nat.add_mul]
      omega
    · rw [count_cons_of_ne equal, same item equal]
      omega

end Vmlab.Library
