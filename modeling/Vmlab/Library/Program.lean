import Mathlib

/-!
# Programs with a state that may fail

Postconditions of the successful runs of a program, with one rule for each way
of building a program. What a failing run leaves behind is not constrained.
-/

namespace Vmlab.Library

variable {ε σ τ α β : Type} {condition : Prop}

def zoom (part : τ → σ) (put : τ → σ → τ) (program : EStateM ε σ α) : EStateM ε τ α := fun state =>
  match program (part state) with
  | .ok value inner => .ok value (put state inner)
  | .error error inner => .error error (put state inner)

variable {value : α} {program : EStateM ε σ α} {next : α → EStateM ε σ β} {start : σ}

theorem run_bind {middle : σ}
    (ran : program start = .ok value middle) : (program >>= next) start = next value middle := by
  simp only [bind, EStateM.bind, ran]

theorem parts_of_bind {finish : σ} {result : β}
    (ran : (program >>= next) start = .ok result finish) :
    ∃ value middle, program start = .ok value middle ∧ next value middle = .ok result finish := by
  simp only [bind, EStateM.bind] at ran
  split at ran
  · next value middle first => exact ⟨value, middle, first, ran⟩
  · cases ran

theorem run_zoom {part : τ → σ} {put : τ → σ → τ} {start : τ} {finish : σ}
    (ran : program (part start) = .ok value finish) : zoom part put program start = .ok value (put start finish) := by
  simp only [zoom, ran]

section

variable {part : τ → σ} {put : τ → σ → τ} (part_put : ∀ state inner, part (put state inner) = inner)
  (put_put : ∀ state inner other, put (put state inner) other = put state other)
include part_put put_put

theorem zoom_bind (program : EStateM ε σ α) (next : α → EStateM ε σ β) :
    zoom part put (program >>= next) = (zoom part put program >>= fun value => zoom part put (next value)) := by
  funext state
  simp only [zoom, bind, EStateM.bind]
  cases program (part state) with
  | ok value middle =>
    simp only [part_put]
    cases next value middle with
    | ok result finish => simp only [put_put]
    | error error finish => simp only [put_put]
  | error error middle => rfl

end

def Ensures (program : EStateM ε σ α) (start : σ) (post : α → σ → Prop) : Prop :=
  ∀ value finish, program start = .ok value finish → post value finish

variable {change : σ → σ} {items : List β} {post middle : α → σ → Prop} {yes no : EStateM ε σ α}
  {act : β → EStateM ε σ PUnit}

namespace Ensures

theorem mono {weaker : α → σ → Prop}
    (known : Ensures program start post) (implies : ∀ value finish, post value finish → weaker value finish) :
    Ensures program start weaker :=
  fun value finish ran => implies value finish (known value finish ran)

theorem and {left right : α → σ → Prop}
    (first : Ensures program start left) (second : Ensures program start right) :
    Ensures program start fun value finish => left value finish ∧ right value finish :=
  fun value finish ran => ⟨first value finish ran, second value finish ran⟩

theorem pure (holds : post value start) : Ensures (Pure.pure value : EStateM ε σ α) start post := by
  intro result finish ran
  cases ran
  exact holds

theorem pureThen {post : β → σ → Prop}
    (rest : Ensures (next value) start post) : Ensures (Pure.pure value >>= next) start post := rest

theorem throw {error : ε} : Ensures (MonadExcept.throw error : EStateM ε σ α) start post := by
  intro result finish ran
  cases ran

theorem bind {post : β → σ → Prop} (first : Ensures program start middle)
    (rest : ∀ value state, middle value state → Ensures (next value) state post) :
    Ensures (program >>= next) start post := by
  intro result finish ran
  obtain ⟨value, state, run, ran⟩ := parts_of_bind ran
  exact rest value state (first value state run) result finish ran

theorem get {post : σ → σ → Prop} (holds : post start start) :
    Ensures (MonadState.get : EStateM ε σ σ) start post := by
  intro value finish ran
  cases ran
  exact holds

theorem getThen {next : σ → EStateM ε σ α}
    (rest : Ensures (next start) start post) : Ensures (MonadState.get >>= next) start post := rest

theorem modifyThen {next : PUnit → EStateM ε σ α}
    (rest : Ensures (next ⟨⟩) (change start) post) : Ensures (modify change >>= next) start post := rest

theorem modify {post : PUnit → σ → Prop} (holds : post ⟨⟩ (change start)) :
    Ensures (modify change : EStateM ε σ PUnit) start post := by
  intro value finish ran
  cases ran
  exact holds

theorem ite [Decidable condition]
    (left : condition → Ensures yes start post) (right : ¬condition → Ensures no start post) :
    Ensures (if condition then yes else no) start post := by
  split
  · next holds => exact left holds
  · next fails => exact right fails

theorem forM (invariant : List β → σ → Prop) (first : invariant items start)
    (step : ∀ item rest state, invariant (item :: rest) state →
      Ensures (act item) state fun _ finish => invariant rest finish) :
    Ensures (items.forM act) start fun _ finish => invariant [] finish := by
  induction items generalizing start with
  | nil => exact pure first
  | cons item items ih =>
    show Ensures (act item >>= fun _ => items.forM act) start _
    exact bind (step item items start first) fun _ _ kept => ih kept

theorem zoom {part : τ → σ} {put : τ → σ → τ} {start : τ} {post : α → τ → Prop}
    (known : Ensures program (part start) fun value finish => post value (put start finish)) :
    Ensures (Library.zoom part put program) start post := by
  intro value finish ran
  simp only [Library.zoom] at ran
  cases run : program (part start) with
  | ok value state =>
    rw [run] at ran
    cases ran
    exact known value state run
  | error error state =>
    rw [run] at ran
    cases ran

end Ensures

def Follows (relation : σ → σ → Prop) (program : EStateM ε σ α) : Prop :=
  ∀ start, Ensures program start fun _ finish => relation start finish

namespace Follows

variable {relation : σ → σ → Prop}

theorem pure [Std.Refl relation] (value : α) : Follows relation (Pure.pure value : EStateM ε σ α) :=
  fun start => Ensures.pure (refl_of relation start)

theorem throw (error : ε) : Follows relation (MonadExcept.throw error : EStateM ε σ α) := fun _ => Ensures.throw

theorem get [Std.Refl relation] : Follows relation (MonadState.get : EStateM ε σ σ) :=
  fun start => Ensures.get (refl_of relation start)

theorem bind [IsTrans σ relation] (first : Follows relation program)
    (rest : ∀ value, Follows relation (next value)) : Follows relation (program >>= next) :=
  fun start => Ensures.bind (first start) fun value middle begun =>
    (rest value middle).mono fun _ _ ended => trans_of relation begun ended

theorem modify (steps : ∀ state, relation state (change state)) :
    Follows relation (modify change : EStateM ε σ PUnit) := fun start => Ensures.modify (steps start)

theorem ite [Decidable condition] (left : Follows relation yes)
    (right : Follows relation no) : Follows relation (if condition then yes else no) :=
  fun start => Ensures.ite (fun _ => left start) fun _ => right start

theorem forM [Std.Refl relation] [IsTrans σ relation] (step : ∀ item, Follows relation (act item)) :
    Follows relation (items.forM act) := by
  induction items with
  | nil => exact pure _
  | cons item items ih => exact bind (step item) fun _ => ih

end Follows

section

variable (measure : σ → Nat)

/-- With enough of the measure to start with, a run takes no more than the cost from it and does what is said. -/
def Spends (cost : Nat) (program : EStateM ε σ α) (start : σ) (post : α → σ → Prop) : Prop :=
  Ensures program start fun value finish => cost ≤ measure start → measure start ≤ measure finish + cost ∧ post value finish

variable {measure} {cost more : Nat}

namespace Spends

theorem bind {post : β → σ → Prop} (first : Spends measure cost program start middle)
    (rest : ∀ value state, middle value state → Spends measure more (next value) state post) :
    Spends measure (cost + more) (program >>= next) start post := by
  refine Ensures.bind first fun value state known result finish ran enough => ?_
  obtain ⟨left, holds⟩ := known (by omega)
  obtain ⟨left', done⟩ := rest value state holds result finish ran (by omega)
  exact ⟨by omega, done⟩

theorem bindLast {post : β → σ → Prop}
    (first : Spends measure cost program start middle)
    (rest : ∀ value state, middle value state → Spends measure 0 (next value) state post) :
    Spends measure cost (program >>= next) start post := bind first rest

theorem bindKept {post : β → σ → Prop}
    (first : Ensures program start fun value state => measure state = measure start ∧ middle value state)
    (rest : ∀ value state, middle value state → Spends measure cost (next value) state post) :
    Spends measure cost (program >>= next) start post := by
  refine Ensures.bind first ?_
  rintro value state ⟨kept, known⟩ result finish ran enough
  obtain ⟨left, done⟩ := rest value state known result finish ran (by omega)
  exact ⟨by omega, done⟩

theorem getThen {next : σ → EStateM ε σ α} (rest : Spends measure cost (next start) start post) :
    Spends measure cost (MonadState.get >>= next) start post := rest

theorem ite [Decidable condition] (left : condition → Spends measure cost yes start post)
    (right : ¬condition → Spends measure cost no start post) :
    Spends measure cost (if condition then yes else no) start post := Ensures.ite left right

theorem mono {weaker : α → σ → Prop}
    (known : Spends measure cost program start post) (implies : ∀ value finish, post value finish → weaker value finish) :
    Spends measure cost program start weaker :=
  Ensures.mono known fun value finish holds enough => ⟨(holds enough).1, implies value finish (holds enough).2⟩

theorem le (known : Spends measure cost program start post) (less : cost ≤ more) :
    Spends measure more program start post := Ensures.mono known fun _ _ holds enough => by
  obtain ⟨left, done⟩ := holds (by omega)
  exact ⟨by omega, done⟩

theorem of_kept
    (known : Ensures program start fun value finish => measure finish = measure start ∧ post value finish) :
    Spends measure cost program start post :=
  known.mono fun _ _ holds _ => ⟨by omega, holds.2⟩

end Spends

end

/-- The state a run ends in, whether it succeeds or fails. -/
def finalState : EStateM.Result ε σ α → σ
  | .ok _ state => state
  | .error _ state => state

def Leaves {γ : Type} (part : σ → γ) (program : EStateM ε σ α) : Prop :=
  ∀ start, part (finalState (program start)) = part start

namespace Leaves

variable {γ : Type} {part : σ → γ}

theorem pure (value : α) : Leaves part (Pure.pure value : EStateM ε σ α) := fun _ => rfl

theorem throw (error : ε) : Leaves part (MonadExcept.throw error : EStateM ε σ α) := fun _ => rfl

theorem bind (first : Leaves part program)
    (rest : ∀ value, Leaves part (next value)) : Leaves part (program >>= next) := by
  intro start
  have begun := first start
  simp only [Bind.bind, EStateM.bind]
  cases run : program start with
  | ok value middle =>
    rw [run] at begun
    exact (rest value middle).trans begun
  | error error middle =>
    rw [run] at begun
    exact begun

theorem ite [Decidable condition] (left : Leaves part yes)
    (right : Leaves part no) : Leaves part (if condition then yes else no) := by
  split
  · exact left
  · exact right

end Leaves

/-- The program succeeds and passes the test. -/
def passes (program : EStateM ε σ α) (start : σ) (test : α → σ → Bool) : Bool :=
  match program start with
  | .ok value finish => test value finish
  | .error _ _ => false

theorem run_of_passes {test : α → σ → Bool}
    (passed : passes program start test = true) :
    ∃ value finish, program start = .ok value finish ∧ test value finish = true := by
  unfold passes at passed
  split at passed
  · next value finish run => exact ⟨value, finish, run, passed⟩
  · cases passed

def Ends (program : EStateM ε σ α) (start : σ) (good : α → σ → Prop) (bad : ε → σ → Prop) : Prop :=
  match program start with
  | .ok value finish => good value finish
  | .error error finish => bad error finish

namespace Ends

variable {good : α → σ → Prop} {bad : ε → σ → Prop}

theorem pure (holds : good value start) : Ends (Pure.pure value : EStateM ε σ α) start good bad := holds

theorem throw {error : ε} (holds : bad error start) :
    Ends (MonadExcept.throw error : EStateM ε σ α) start good bad := holds

theorem bind {program : EStateM ε σ β} {next : β → EStateM ε σ α} {middle : β → σ → Prop}
    (first : Ends program start middle bad)
    (rest : ∀ value state, middle value state → Ends (next value) state good bad) :
    Ends (program >>= next) start good bad := by
  unfold Ends at first ⊢
  simp only [Bind.bind, EStateM.bind]
  cases run : program start with
  | ok value state =>
    rw [run] at first
    exact rest value state first
  | error error state =>
    rw [run] at first
    exact first

theorem pureThen {value : β} {next : β → EStateM ε σ α} (rest : Ends (next value) start good bad) :
    Ends (Pure.pure value >>= next) start good bad := rest

theorem get {next : σ → EStateM ε σ α} (rest : Ends (next start) start good bad) :
    Ends (MonadState.get >>= next) start good bad := rest

theorem modifyThen {next : PUnit → EStateM ε σ α}
    (rest : Ends (next ⟨⟩) (change start) good bad) : Ends (modify change >>= next) start good bad := rest

theorem modify {good : PUnit → σ → Prop} (holds : good ⟨⟩ (change start)) :
    Ends (modify change : EStateM ε σ PUnit) start good bad := holds

theorem ite [Decidable condition]
    (left : condition → Ends yes start good bad) (right : ¬condition → Ends no start good bad) :
    Ends (if condition then yes else no) start good bad := by
  split
  · next holds => exact left holds
  · next fails => exact right fails

theorem forM (invariant : List β → σ → Prop) (first : invariant items start)
    (step : ∀ item rest state, invariant (item :: rest) state →
      Ends (act item) state (fun _ finish => invariant rest finish) bad) :
    Ends (items.forM act) start (fun _ finish => invariant [] finish) bad := by
  induction items generalizing start with
  | nil => exact first
  | cons item items ih =>
    show Ends (act item >>= fun _ => items.forM act) start _ _
    exact bind (step item items start first) fun _ _ kept => ih kept

theorem zoom {program : EStateM ε τ α} {part : σ → τ} {put : σ → τ → σ}
    (known : Ends program (part start) (fun value finish => good value (put start finish))
      fun error finish => bad error (put start finish)) :
    Ends (Library.zoom part put program) start good bad := by
  unfold Ends at known ⊢
  simp only [Library.zoom]
  cases run : program (part start) with
  | ok value finish | error error finish =>
    rw [run] at known
    exact known

theorem ensures (known : Ends program start good bad) :
    Ensures program start good := by
  intro value finish ran
  unfold Ends at known
  rw [ran] at known
  exact known

theorem mono {better : α → σ → Prop} {worse : ε → σ → Prop}
    (known : Ends program start better worse) (onGood : ∀ value finish, better value finish → good value finish)
    (onBad : ∀ error finish, worse error finish → bad error finish) : Ends program start good bad := by
  unfold Ends at known ⊢
  cases run : program start with
  | ok value state =>
    rw [run] at known
    exact onGood value state known
  | error error state =>
    rw [run] at known
    exact onBad error state known

theorem monoBad {worse : ε → σ → Prop} (known : Ends program start good worse)
    (onBad : ∀ error finish, worse error finish → bad error finish) : Ends program start good bad :=
  known.mono (fun _ _ holds => holds) onBad

theorem and {good' : α → σ → Prop} {bad' : ε → σ → Prop}
    (first : Ends program start good bad) (second : Ends program start good' bad') :
    Ends program start (fun value finish => good value finish ∧ good' value finish)
      fun error finish => bad error finish ∧ bad' error finish := by
  unfold Ends at first second ⊢
  cases run : program start with
  | ok value state | error error state =>
    rw [run] at first second
    exact ⟨first, second⟩

end Ends

end Vmlab.Library
