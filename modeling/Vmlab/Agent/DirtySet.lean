import Mathlib

/-!
# The guest's dirty set

The watch's coalescing set, the agent's two threads around it, and the host that counts its drains. The stats in a
batch are left out.
-/

namespace Vmlab.Agent.DirtySet

open List

def dirtySetCap : Nat := 20000

structure SetState (α : Type) where
  paths : List α
  overflow : Bool
  nudge : Bool
  drain : Bool

inductive Drained (α : Type) where
  | paths (paths : List α)
  | rescan

inductive Work (α : Type) where
  | nudge
  | drain (window : Drained α)

variable {α : Type}

def SetState.start : SetState α := ⟨[], false, false, false⟩

namespace SetState

section

variable (state : SetState α)

def hasContent : Bool := state.overflow || !state.paths.isEmpty

def swap : Drained α × SetState α :=
  if state.overflow then (.rescan, { state with paths := [], overflow := false })
  else (.paths state.paths, { state with paths := [] })

def noted : SetState α := if state.hasContent then state else { state with nudge := true }

end

def mark [DecidableEq α] (state : SetState α) (rel : α) : SetState α :=
  if state.overflow then state.noted
  else if dirtySetCap ≤ state.paths.length ∧ rel ∉ state.paths then { state.noted with paths := [], overflow := true }
  else { state.noted with paths := state.paths.insert rel }

variable (state : SetState α)

/-- The set's own `overflow`. -/
def collapse : SetState α := { state.noted with paths := [], overflow := true }

def requestDrain : SetState α := { state with drain := true }

/-- What the sender takes; `none` while it waits. -/
def takeWork : Option (Work α × SetState α) :=
  if state.drain then some (.drain state.swap.1, { state.swap.2 with drain := false, nudge := false })
  else if state.nudge then some (.nudge, { state with nudge := false })
  else none

end SetState

/-! ## No path is lost -/

def Drained.Covers (rel : α) : Drained α → Prop
  | .paths listed => rel ∈ listed
  | .rescan => True

def SetState.Holds (state : SetState α) (rel : α) : Prop := state.overflow = true ∨ rel ∈ state.paths

section

variable {state : SetState α} {rel : α}

theorem takeWork_cases {work : Work α} {after : SetState α} (taken : state.takeWork = some (work, after)) :
    (state.drain = true ∧ work = .drain state.swap.1 ∧ after = { state.swap.2 with drain := false, nudge := false }) ∨
    (state.drain = false ∧ state.nudge = true ∧ work = .nudge ∧ after = { state with nudge := false }) := by
  unfold SetState.takeWork at taken
  split at taken
  · next asked =>
    cases taken
    exact .inl ⟨asked, rfl, rfl⟩
  · next unasked =>
    split at taken <;> cases taken
    next due => exact .inr ⟨Bool.eq_false_iff.mpr unasked, due, rfl, rfl⟩

theorem noted_overflow : state.noted.overflow = state.overflow := by
  unfold SetState.noted
  split <;> rfl

theorem swap_covers (holds : state.Holds rel) : state.swap.1.Covers rel := by
  unfold SetState.swap
  split
  · trivial
  · next shown => exact holds.resolve_left shown

theorem swap_empty (state : SetState α) : state.swap.2.hasContent = false := by
  unfold SetState.swap
  split
  · rfl
  · next shown => simpa [SetState.hasContent] using shown

theorem noted_drain : state.noted.drain = state.drain := by
  unfold SetState.noted
  split <;> rfl

end

variable [DecidableEq α]

inductive Event (α : Type) where
  | mark (rel : α)
  | overflow
  | requestDrain
  | takeWork

/-- The set, and what was taken from it, the newest first. -/
structure History (α : Type) where
  set : SetState α
  works : List (Work α)

def History.step (history : History α) : Event α → History α
  | .mark rel => { history with set := history.set.mark rel }
  | .overflow => { history with set := history.set.collapse }
  | .requestDrain => { history with set := history.set.requestDrain }
  | .takeWork =>
    match history.set.takeWork with
    | some (work, set) => ⟨set, work :: history.works⟩
    | none => history

def History.run (history : History α) (events : List (Event α)) : History α := events.foldl History.step history

def Work.window? : Work α → Option (Drained α)
  | .nudge => none
  | .drain window => some window

section

variable (history : History α)

def History.windows : List (Drained α) := history.works.filterMap Work.window?

/-- The first window that was taken covers the path; before one is taken the set holds it. -/
def History.Keeps (rel : α) : Prop :=
  history.windows = [] ∧ history.set.Holds rel ∨ ∃ newer first, history.windows = newer ++ [first] ∧ first.Covers rel

/-- A window is asked for or was taken. -/
def History.Answers : Prop := history.set.drain = true ∨ history.windows ≠ []

/-- What there is to report, a nudge is due for or was sent since the last swap. -/
def History.Nudged : Prop :=
  history.set.hasContent = true →
    history.set.nudge = true ∨ Work.nudge ∈ history.works.takeWhile fun work => work.window?.isNone

end

section

variable {state : SetState α} {history : History α} {rel : α}

theorem mark_drain (state : SetState α) (rel : α) : (state.mark rel).drain = state.drain := by
  unfold SetState.mark
  repeat' split
  all_goals exact noted_drain

theorem mark_holds (state : SetState α) (rel : α) : (state.mark rel).Holds rel := by
  unfold SetState.mark
  split
  · next overflow => exact .inl (noted_overflow.trans overflow)
  split
  · exact .inl rfl
  · exact .inr mem_insert_self

theorem Holds.mark (holds : state.Holds rel) (other : α) : (state.mark other).Holds rel := by
  unfold SetState.mark
  split
  · next overflow => exact .inl (noted_overflow.trans overflow)
  · next shown =>
    split
    · exact .inl rfl
    · exact .inr (mem_insert_of_mem (holds.resolve_left shown))

theorem Keeps.step (keeps : history.Keeps rel) (event : Event α) : (history.step event).Keeps rel := by
  cases event with
  | mark other => exact keeps.imp_left fun ⟨untaken, holds⟩ => ⟨untaken, Holds.mark holds other⟩
  | overflow => exact keeps.imp_left fun ⟨untaken, _⟩ => ⟨untaken, .inl rfl⟩
  | requestDrain => exact keeps
  | takeWork =>
    rw [History.step]
    split
    · next work after taken =>
      rcases takeWork_cases taken with ⟨_, rfl, rfl⟩ | ⟨_, _, rfl, rfl⟩
      · rcases keeps with ⟨untaken, holds⟩ | ⟨newer, first, windows, covers⟩
        · exact .inr ⟨[], _, congrArg _ untaken, swap_covers holds⟩
        · exact .inr ⟨_ :: newer, first, congrArg _ windows, covers⟩
      · exact keeps
    · exact keeps

theorem windows_suffix (history : History α) (event : Event α) : history.windows <:+ (history.step event).windows := by
  cases event with
  | mark | overflow | requestDrain => exact suffix_rfl
  | takeWork =>
    rw [History.step]
    split
    · exact (suffix_cons ..).filterMap _
    · exact suffix_rfl

theorem Answers.taken (answers : history.Answers) : (history.step .takeWork).windows ≠ [] := by
  rcases answers with asked | taken
  · simp [History.step, SetState.takeWork, asked, History.windows, Work.window?]
  · exact fun none => taken (suffix_nil.mp (none ▸ windows_suffix history .takeWork))

theorem Answers.step (answers : history.Answers) (event : Event α) : (history.step event).Answers := by
  cases event with
  | mark rel => exact answers.imp_left (mark_drain _ rel).trans
  | overflow => exact answers.imp_left noted_drain.trans
  | requestDrain => exact .inl rfl
  | takeWork => exact .inr (Answers.taken answers)

theorem Nudged.step (nudged : history.Nudged) (event : Event α) : (history.step event).Nudged := by
  have noted : history.set.noted.nudge = true ∨
      Work.nudge ∈ history.works.takeWhile fun work => work.window?.isNone := by
    unfold SetState.noted
    split
    · next content => exact nudged content
    · exact .inl rfl
  cases event with
  | mark rel =>
    intro _
    simp only [History.step, SetState.mark]
    split
    · exact noted
    · split <;> exact noted
  | overflow => exact fun _ => noted
  | requestDrain => exact nudged
  | takeWork =>
    rw [History.step]
    split
    · next work after taken =>
      rcases takeWork_cases taken with ⟨_, rfl, rfl⟩ | ⟨_, _, rfl, rfl⟩
      · intro content
        cases content.symm.trans (swap_empty history.set)
      · exact fun _ => .inr (by simp [Work.window?])
    · exact nudged

end

/-- In every run a marked path is covered by the first window taken after the mark, a window is taken once one is asked
for, and what there is to report is nudged for. -/
theorem dirtySet_keeps_marks : (∀ (before after : List (Event α)) (rel : α),
      (History.run ⟨(History.run ⟨.start, []⟩ (before ++ [.mark rel])).set, []⟩ after).Keeps rel) ∧
    (∀ (before between asked rest : List (Event α)) (rel : α), ∃ newer first,
      (History.run ⟨(History.run ⟨.start, []⟩ (before ++ [.mark rel])).set, []⟩
        (between ++ .requestDrain :: asked ++ .takeWork :: rest)).windows = newer ++ [first] ∧ first.Covers rel) ∧
    ∀ events : List (Event α), (History.run ⟨.start, []⟩ events).Nudged := by
  have keeps (before after : List (Event α)) (rel : α) :
      (History.run ⟨(History.run ⟨.start, []⟩ (before ++ [.mark rel])).set, []⟩ after).Keeps rel := by
    refine foldlRecOn (motive := (History.Keeps · rel)) after _ ?_ fun _ keeps event _ => Keeps.step keeps event
    rw [History.run, foldl_append]
    exact .inl ⟨rfl, mark_holds _ rel⟩
  refine ⟨keeps, fun before between asked rest rel => ?_, fun events => ?_⟩
  · refine (keeps before _ rel).resolve_left fun untaken => ?_
    simp only [History.run, foldl_append, foldl_cons] at untaken
    refine absurd untaken.1 (foldlRecOn (motive := (History.windows · ≠ [])) rest _ (Answers.taken ?_) ?_)
    · exact foldlRecOn (motive := History.Answers) asked _ (.inl rfl) fun _ answers event _ => Answers.step answers event
    · exact fun history taken event _ none => taken (suffix_nil.mp (none ▸ windows_suffix history event))
  · refine foldlRecOn (motive := History.Nudged) events _ (fun content => ?_) fun _ nudged event _ => Nudged.step nudged event
    cases content

/-! ## No path is made up -/

/-- Each path was marked and is listed once, and there are no more than the cap allows. -/
def Trusted (marked : α → Prop) (listed : List α) : Prop :=
  listed.Nodup ∧ listed.length ≤ dirtySetCap ∧ ∀ rel ∈ listed, marked rel

def History.Trusted (history : History α) (marked : α → Prop) : Prop :=
  DirtySet.Trusted marked history.set.paths ∧ ∀ listed, .paths listed ∈ history.windows → DirtySet.Trusted marked listed

section

variable {marked : α → Prop}

omit [DecidableEq α] in
theorem trusted_nil : Trusted marked [] := ⟨nodup_nil, Nat.zero_le _, nofun⟩

theorem Trusted.mark {state : SetState α} {rel : α} (trusted : Trusted marked state.paths) (isMarked : marked rel) :
    Trusted marked (state.mark rel).paths := by
  unfold SetState.mark
  split
  · unfold SetState.noted
    split <;> exact trusted
  split
  · exact trusted_nil
  next room =>
  obtain ⟨once, short, marks⟩ := trusted
  refine ⟨once.insert, ?_, fun other member => ?_⟩
  · by_cases listed : rel ∈ state.paths
    · rwa [insert_of_mem listed]
    · rw [length_insert_of_not_mem listed]
      exact Nat.lt_of_not_le fun full => room ⟨full, listed⟩
  · rcases mem_insert_iff.mp member with rfl | member
    · exact isMarked
    · exact marks other member

theorem Trusted.step {history : History α} {event : Event α} (trusted : history.Trusted marked)
    (isMarked : ∀ rel, event = .mark rel → marked rel) : (history.step event).Trusted marked := by
  obtain ⟨held, sent⟩ := id trusted
  cases event with
  | mark rel => exact ⟨held.mark (isMarked rel rfl), sent⟩
  | overflow => exact ⟨trusted_nil, sent⟩
  | requestDrain => exact trusted
  | takeWork =>
    rw [History.step]
    split
    · next taken =>
      rcases takeWork_cases taken with ⟨_, rfl, rfl⟩ | ⟨_, _, rfl, rfl⟩
      · unfold SetState.swap
        split
        all_goals
          refine ⟨trusted_nil, fun listed inside => ?_⟩
          rcases mem_cons.mp inside with same | earlier
          · cases same <;> exact held
          · exact sent listed earlier
      · exact trusted
    · exact trusted

end

/-- In every run the set and the windows taken from it list only paths that were marked, none of them twice and never
more than the cap. -/
theorem dirtySet_lists_marks (events : List (Event α)) :
    (History.run ⟨.start, []⟩ events).Trusted fun rel => .mark rel ∈ events := by
  refine foldlRecOn (motive := (History.Trusted · fun rel => .mark rel ∈ events)) events _ ?_ ?_
  · exact ⟨trusted_nil, fun _ taken => absurd taken not_mem_nil⟩
  · exact fun _ trusted event member => Trusted.step trusted fun rel same => same ▸ member

/-! ## The host's count of drains -/

/-- The host's count, the drain records and the agent's records on the way, and how many drain records were read
before an earlier one was taken up. -/
structure Link (α : Type) where
  draining : Nat
  requests : Nat
  set : SetState α
  records : List (Work α)
  merged : Nat

inductive Turn (α : Type) where
  | settleGuest
  | mark (rel : α)
  | overflow
  | drainLoop
  | sendLoop
  | recv

/-- The agent's two threads and the host's reader. -/
def Turn.threads : List (Turn α) := [.drainLoop, .sendLoop, .recv]

def Link.start : Link α := ⟨0, 0, .start, [], 0⟩

/-- The host drains when it settles, and once for every nudge. -/
def Link.drain (link : Link α) : Link α := { link with draining := link.draining + 1, requests := link.requests + 1 }

/-- A turn, which changes nothing while its thread has to wait. -/
def Link.step (link : Link α) : Turn α → Link α
  | .settleGuest => link.drain
  | .mark rel => { link with set := link.set.mark rel }
  | .overflow => { link with set := link.set.collapse }
  | .drainLoop =>
    match link.requests with
    | 0 => link
    | requests + 1 =>
      { link with requests, set := link.set.requestDrain, merged := link.merged + link.set.drain.toNat }
  | .sendLoop =>
    match link.set.takeWork with
    | some (work, set) => { link with set, records := link.records ++ [work] }
    | none => link
  | .recv =>
    match link.records with
    | [] => link
    | .nudge :: records => { link with records }.drain
    | .drain _ :: records => { link with records, draining := link.draining - 1 }

def Work.isDrain (work : Work α) : Bool := work.window?.isSome

/-- The drains whose answer is still to come. -/
def Link.owed (link : Link α) : Nat := link.requests + link.set.drain.toNat + link.records.countP Work.isDrain

/-- The host counts the answers to come and, for ever, the requests that were merged into others. -/
def Link.Counted (link : Link α) : Prop := link.draining = link.owed + link.merged

def Work.steps : Work α → Nat
  | .nudge => 4
  | .drain _ => 1

/-- A bound of the turns that the threads can still take. -/
def Link.steps (link : Link α) : Nat :=
  3 * link.requests + 2 * link.set.drain.toNat + 5 * link.set.nudge.toNat + (link.records.map Work.steps).sum

section

variable {link : Link α}

theorem counted_step (counted : link.Counted) (turn : Turn α) : (link.step turn).Counted := by
  unfold Link.Counted Link.owed at counted ⊢
  cases turn with
  | settleGuest =>
    simp only [Link.step, Link.drain]
    omega
  | mark rel => simpa only [Link.step, mark_drain] using counted
  | overflow => simpa only [Link.step, SetState.collapse, noted_drain] using counted
  | drainLoop =>
    rw [Link.step]
    split
    · exact counted
    · next requests waiting =>
      rw [waiting] at counted
      simp only [SetState.requestDrain, Bool.toNat_true]
      omega
  | sendLoop =>
    rw [Link.step]
    split
    · next work after taken =>
      simp only [countP_append, countP_singleton]
      rcases takeWork_cases taken with ⟨asked, rfl, rfl⟩ | ⟨unasked, _, rfl, rfl⟩
      · simp only [asked, Bool.toNat_true] at counted
        simp only [Work.isDrain, Work.window?, Option.isSome_some, if_true, Bool.toNat_false]
        omega
      · simpa [Work.isDrain, Work.window?] using counted
    · exact counted
  | recv =>
    rw [Link.step]
    split
    · exact counted
    · next records waiting =>
      simp only [waiting, countP_cons, Work.isDrain, Work.window?, Option.isSome_none, Bool.false_eq_true,
        if_false] at counted
      simp only [Link.drain]
      omega
    · next window records waiting =>
      simp only [waiting, countP_cons, Work.isDrain, Work.window?, Option.isSome_some, if_true] at counted
      dsimp only
      omega

theorem steps_lt {turn : Turn α} (thread : turn ∈ Turn.threads) :
    link.step turn = link ∨ (link.step turn).steps < link.steps := by
  simp only [Turn.threads, mem_cons, not_mem_nil, or_false] at thread
  rcases thread with rfl | rfl | rfl
  · rw [Link.step]
    split
    · exact .inl rfl
    · next requests waiting =>
      have asked := Bool.toNat_le link.set.drain
      simp only [Link.steps, waiting, SetState.requestDrain, Bool.toNat_true]
      omega
  · rw [Link.step]
    split
    · next work after taken =>
      right
      rcases takeWork_cases taken with ⟨asked, rfl, rfl⟩ | ⟨_, due, rfl, rfl⟩
      · simp [Link.steps, asked, Work.steps]
        omega
      · simp [Link.steps, due, Work.steps]
        omega
    · exact .inl rfl
  rw [Link.step]
  split
  · exact .inl rfl
  · next records waiting =>
    simp [Link.steps, waiting, Work.steps, Link.drain]
    omega
  · next window records waiting =>
    simp [Link.steps, waiting, Work.steps]

theorem owed_eq_zero (waits : ∀ turn ∈ Turn.threads, link.step turn = link) : link.owed = 0 := by
  have requests : link.requests = 0 := by
    have same := congrArg Link.requests (waits .drainLoop (by simp [Turn.threads]))
    rw [Link.step] at same
    split at same
    · assumption
    · next requests waiting =>
      dsimp only at same
      omega
  have asked : link.set.drain = false := by
    have same := congrArg (·.set.drain) (waits .sendLoop (by simp [Turn.threads]))
    cases asked : link.set.drain with
    | false => rfl
    | true => simp [Link.step, SetState.takeWork, asked] at same
  have records : link.records = [] := by
    have same := congrArg (·.records.length) (waits .recv (by simp [Turn.threads]))
    rw [Link.step] at same
    split at same
    · assumption
    all_goals
      rename_i waiting
      simp [Link.drain, waiting] at same
  simp [Link.owed, requests, asked, records]

end

def Link.run (turns : List (Turn α)) : Link α := turns.foldl Link.step .start

/-- After any run the agent's threads and the host's reader come to rest, and when they have nothing to do the host's
count is zero exactly when no drain record was read before an earlier one was taken up. -/
theorem drains_answered_iff (turns : List (Turn α)) : let link := Link.run turns
    (∀ turn ∈ Turn.threads, link.step turn = link ∨ (link.step turn).steps < link.steps) ∧
      ((∀ turn ∈ Turn.threads, link.step turn = link) → (link.draining = 0 ↔ link.merged = 0)) := by
  have counted : (Link.run turns).Counted :=
    foldlRecOn (motive := Link.Counted) turns _ rfl fun _ counted turn _ => counted_step counted turn
  refine ⟨fun turn thread => steps_lt thread, fun waits => ?_⟩
  rw [counted, owed_eq_zero waits, Nat.zero_add]

/-- Two drains that are both read before the sender's turn get one answer, and the host waits for another. -/
theorem second_drain_unanswered :
    let link : Link Nat := Link.run [.settleGuest, .settleGuest, .drainLoop, .drainLoop, .sendLoop, .recv]
    (∀ turn ∈ Turn.threads, link.step turn = link) ∧ link.draining = 1 := by
  refine ⟨?_, rfl⟩
  simp only [Turn.threads, forall_mem_cons]
  exact ⟨rfl, rfl, rfl, forall_mem_nil _⟩

end Vmlab.Agent.DirtySet
