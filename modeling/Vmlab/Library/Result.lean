import Mathlib

/-! Taking computations that may fail apart. -/

namespace Vmlab.Library

open List

variable {ε α β : Type}

theorem bind_eq_ok {source : Except ε α} {next : α → Except ε β} {result : β} :
    (source >>= next) = .ok result ↔ ∃ value, source = .ok value ∧ next value = .ok result := by
  cases source with
  | error error => simp [bind, Except.bind]
  | ok value => simp [bind, Except.bind]

theorem ite_error_eq_ok {condition : Prop} [Decidable condition] {error : ε} {next : Except ε β} {result : β} :
    (if condition then .error error else next) = .ok result ↔ ¬condition ∧ next = .ok result := by
  split <;> simp_all

variable {step : α → Except ε β} {inputs : List α} {results : List β} (mapped : inputs.mapM step = .ok results)
include mapped

theorem getElem?_of_mapM :
    results.length = inputs.length ∧ ∀ (index : Nat) (result : β), results[index]? = some result →
      ∃ input, inputs[index]? = some input ∧ step input = .ok result := by
  induction inputs generalizing results with
  | nil =>
    simp only [mapM_nil, pure, Except.pure, Except.ok.injEq] at mapped
    subst results
    exact ⟨rfl, fun index result found => by simp at found⟩
  | cons input inputs ih =>
    rw [mapM_cons] at mapped
    obtain ⟨first, stepped, mapped⟩ := bind_eq_ok.mp mapped
    obtain ⟨others, mappedRest, shape⟩ := bind_eq_ok.mp mapped
    cases shape
    obtain ⟨length, each⟩ := ih mappedRest
    refine ⟨by rw [length_cons, length_cons, length], fun index result found => ?_⟩
    cases index with
    | zero =>
      cases found
      exact ⟨input, rfl, stepped⟩
    | succ index => exact each index result found

theorem exists_of_mem_mapM {result : β} (member : result ∈ results) : ∃ input ∈ inputs, step input = .ok result := by
  obtain ⟨index, found⟩ := getElem?_of_mem member
  obtain ⟨input, inside, stepped⟩ := (getElem?_of_mapM mapped).2 index result found
  exact ⟨input, mem_of_getElem? inside, stepped⟩

end Vmlab.Library
