import Vmlab.Workspace.Plan

/-!
# What a reconciliation plans

The loop of `reconcile` decides every path on its own; only the guard against a mass deletion looks at all of them.
So the plan at a path is its own decision, less the removal that the guard withholds.
-/

namespace Vmlab.Workspace

open Library (SortedMap)
open List

theorem moved_held_ne_absent (held : State) (was : Option Agreed) : moved (some held) was ≠ .absent := by
  cases was with
  | none => simp [moved]
  | some was =>
    simp only [moved]
    split
    · simp
    split
    · simp
    · split <;> simp

variable {was : Option Agreed} {α : Type} {path : Path} {winner : Winner} {action : Action}

theorem moved_eq_unchanged {held : State}
    (still : (moved (some held) was).changed = false) : moved (some held) was = .unchanged := by
  have present := moved_held_ne_absent held was
  cases found : moved (some held) was with
  | absent => exact (present found).elim
  | unchanged => rfl
  | created | modified | deleted | replacedByOtherKind => simp [found, Moved.changed] at still

namespace Decision

def removal : Decision → Option Action
  | .carry removal _ => removal
  | _ => none

def creation : Decision → Option Action
  | .carry _ (some (.ok action)) => some action
  | _ => none

def refusal : Decision → Option Oversize
  | .carry _ (some (.error refusal)) => some refusal
  | _ => none

def adopted : Decision → Option Agreed
  | .settle (.adopt agreed) => some agreed
  | _ => none

def conflict : Decision → Option ConflictKind
  | .settle (.conflict kind) => some kind
  | _ => none

def forgets : Decision → Bool
  | .forget => true
  | _ => false

end Decision

namespace Draft

theorem record_eq (draft : Draft) (path : Path) (decision : Decision) : draft.record path decision =
      { removals := draft.removals ++ decision.removal.toList
        creations := draft.creations ++ decision.creation.toList
        adopt := draft.adopt ++ (decision.adopted.map (path, ·)).toList
        forget := draft.forget ++ if decision.forgets then [path] else []
        conflicts := draft.conflicts ++ (decision.conflict.map (Conflict.mk path)).toList
        oversize := draft.oversize ++ decision.refusal.toList } := by
  cases decision with
  | leave | forget => simp [record, Decision.removal, Decision.creation, Decision.adopted, Decision.forgets,
      Decision.conflict, Decision.refusal]
  | settle settled =>
    cases settled <;> simp [record, Decision.removal, Decision.creation, Decision.adopted, Decision.forgets,
      Decision.conflict, Decision.refusal]
  | carry removal placement =>
    rcases placement with _ | _ | _ <;>
      simp [record, Decision.removal, Decision.creation, Decision.adopted, Decision.forgets,
        Decision.conflict, Decision.refusal]

theorem foldl_record (decide : Path → Decision) (paths : List Path) (draft : Draft) :
    paths.foldl (fun (draft : Draft) path => draft.record path (decide path)) draft =
      { removals := draft.removals ++ paths.flatMap fun path => (decide path).removal.toList
        creations := draft.creations ++ paths.flatMap fun path => (decide path).creation.toList
        adopt := draft.adopt ++ paths.flatMap fun path => ((decide path).adopted.map (path, ·)).toList
        forget := draft.forget ++ paths.flatMap fun path => if (decide path).forgets then [path] else []
        conflicts := draft.conflicts ++
          paths.flatMap fun path => ((decide path).conflict.map (Conflict.mk path)).toList
        oversize := draft.oversize ++ paths.flatMap fun path => (decide path).refusal.toList } := by
  induction paths generalizing draft with
  | nil => simp
  | cons path rest ih =>
    rw [foldl_cons, ih, record_eq]
    simp

end Draft

theorem filter_flatMap_toList (key : α → Path) (gather : Path → Option α) (paths : List Path)
    (distinct : paths.Nodup) (keyed : ∀ path item, gather path = some item → key item = path) (path : Path) :
    (paths.flatMap fun path => (gather path).toList).filter (fun item => key item = path) =
      if path ∈ paths then (gather path).toList else [] := by
  induction paths with
  | nil => simp
  | cons head rest ih =>
    obtain ⟨fresh, distinct⟩ := nodup_cons.mp distinct
    rw [flatMap_cons, filter_append, ih distinct]
    by_cases same : path = head
    · subst same
      cases found : gather path with
      | none => simp [fresh]
      | some item => simp [fresh, keyed path item found]
    cases found : gather head with
    | none => simp [same]
    | some item => simp [same, keyed head item found, Ne.symm same]

section

variable (toLowercase : Path → Path) (inputs : Inputs)

def decision (path : Path) : Decision :=
  if path ∈ inputs.paths then decidePath inputs (colliding toLowercase inputs) path else .leave

def Inputs.moving (direction : Direction) : Tree := if direction.sourceIsHost then inputs.host else inputs.guest

def Inputs.standing (direction : Direction) : Tree := if direction.sourceIsHost then inputs.guest else inputs.host

section

variable (path : Path)

def Inputs.hostMoved : Moved := moved (inputs.host.get? path) (inputs.ledger.entries.get? path)

def Inputs.guestMoved : Moved := moved (inputs.guest.get? path) (inputs.ledger.entries.get? path)

/-- Whether the loop gets past its first two tests at a path. -/
structure Open : Prop where
  decided : path ∉ inputs.undecided
  apart : path ∉ colliding toLowercase inputs
  synced : path ∉ inputs.guestOwned
  held : (inputs.host.get? path).isSome ∨ (inputs.guest.get? path).isSome

structure Carries (direction : Direction) : Prop extends Open toLowercase inputs path where
  heads : heading (resolution inputs path (inputs.hostMoved path) (inputs.guestMoved path))
    (inputs.hostMoved path) (inputs.guestMoved path) = some direction
  oneSided : ¬ ((inputs.hostMoved path).changed ∧ (inputs.guestMoved path).changed ∧
    (resolution inputs path (inputs.hostMoved path) (inputs.guestMoved path)).isNone)

end

variable {toLowercase inputs}

theorem paths_nodup : inputs.paths.Nodup := (SortedMap.keys_sorted _).nodup

theorem mem_paths : path ∈ inputs.paths ↔
    (inputs.host.get? path).isSome ∨ (inputs.guest.get? path).isSome ∨ (inputs.ledger.entries.get? path).isSome := by
  rw [Inputs.paths, SortedMap.mem_ofKeys]
  simp [SortedMap.mem_keys, Option.isSome_iff_exists]

theorem Open.decision_eq (reached : Open toLowercase inputs path) : decision toLowercase inputs path =
      (let winner := resolution inputs path (inputs.hostMoved path) (inputs.guestMoved path)
       if (inputs.hostMoved path).changed ∧ (inputs.guestMoved path).changed ∧ winner.isNone then
         .settle (settleBoth (inputs.host.get? path) (inputs.guest.get? path) (inputs.ledger.entries.get? path))
       else
         match heading winner (inputs.hostMoved path) (inputs.guestMoved path) with
         | some direction => carry inputs path direction ((inputs.moving direction).get? path)
             ((inputs.standing direction).get? path) (inputs.ledger.entries.get? path)
         | none => .leave) := by
  obtain ⟨decided, apart, synced, held⟩ := reached
  have known : path ∈ inputs.paths := mem_paths.mpr (held.imp_right .inl)
  have present : ¬ ((inputs.host.get? path).isNone ∧ (inputs.guest.get? path).isNone) := by
    rcases held with held | held <;> simp [Option.isNone_iff_eq_none, Option.isSome_iff_ne_none.mp held]
  simp only [decision, known, if_true, decidePath, decided, apart, synced, or_self, if_false, present,
    Inputs.hostMoved, Inputs.guestMoved]
  refine if_congr Iff.rfl rfl ?_
  generalize heading _ _ _ = way
  rcases way with _ | _ | _ <;> rfl

def Winner.direction : Winner → Direction
  | .host => .toGuest
  | .guest => .toHost

section

variable (reached : Open toLowercase inputs path)
include reached

theorem Open.decision_resolved (chosen : inputs.resolved.get? path = some winner)
    (changed : (inputs.hostMoved path).changed ∨ (inputs.guestMoved path).changed) :
    decision toLowercase inputs path = carry inputs path winner.direction
      ((inputs.moving winner.direction).get? path) ((inputs.standing winner.direction).get? path)
      (inputs.ledger.entries.get? path) := by
  have stands : resolution inputs path (inputs.hostMoved path) (inputs.guestMoved path) = some winner := by
    simp [resolution, chosen, Option.filter, changed]
  rw [reached.decision_eq]
  simp only [stands, Option.isNone_some, Bool.false_eq_true, and_false, if_false]
  cases winner <;> rfl

variable (unresolved : inputs.resolved.get? path = none)
include unresolved

theorem Open.decision_both (host : (inputs.hostMoved path).changed) (guest : (inputs.guestMoved path).changed) :
    decision toLowercase inputs path =
      .settle (settleBoth (inputs.host.get? path) (inputs.guest.get? path) (inputs.ledger.entries.get? path)) := by
  rw [reached.decision_eq]
  simp [resolution, unresolved, host, guest]

theorem Open.decision_host (host : (inputs.hostMoved path).changed)
    (guest : (inputs.guestMoved path).changed = false) :
    decision toLowercase inputs path = carry inputs path .toGuest (inputs.host.get? path) (inputs.guest.get? path)
      (inputs.ledger.entries.get? path) := by
  rw [reached.decision_eq]
  simp [resolution, unresolved, host, guest, heading, Inputs.moving, Inputs.standing, Direction.sourceIsHost]

theorem Open.decision_guest (host : (inputs.hostMoved path).changed = false)
    (guest : (inputs.guestMoved path).changed) :
    decision toLowercase inputs path = carry inputs path .toHost (inputs.guest.get? path) (inputs.host.get? path)
      (inputs.ledger.entries.get? path) := by
  rw [reached.decision_eq]
  simp [resolution, unresolved, host, guest, heading, Inputs.moving, Inputs.standing, Direction.sourceIsHost]

end

theorem decision_of_not_open (closed : ¬ Open toLowercase inputs path) :
    decision toLowercase inputs path = .leave ∨ decision toLowercase inputs path = .forget := by
  simp only [decision]
  split
  · simp only [decidePath]
    split
    · exact .inl rfl
    rename_i passed
    split
    · exact .inr rfl
    rename_i synced
    rw [not_or] at passed
    have none : (inputs.host.get? path).isNone ∧ (inputs.guest.get? path).isNone := by
      by_contra present
      apply closed
      refine ⟨passed.1, passed.2, synced, ?_⟩
      simpa [Option.isNone_iff_eq_none, Option.isSome_iff_ne_none, ← not_and_or] using present
    rw [if_pos none]
    split
    · exact .inr rfl
    · exact .inl rfl
  · exact .inl rfl

theorem decision_carry {removal : Option Action} {placement : Option (Except Oversize Action)}
    (decided : decision toLowercase inputs path = .carry removal placement) :
    ∃ direction, Carries toLowercase inputs path direction ∧
      carry inputs path direction ((inputs.moving direction).get? path) ((inputs.standing direction).get? path)
        (inputs.ledger.entries.get? path) = .carry removal placement := by
  by_cases reached : Open toLowercase inputs path
  · rw [reached.decision_eq] at decided
    dsimp only at decided
    split at decided
    · cases decided
    · next oneSided =>
      split at decided
      · next direction heads => exact ⟨direction, ⟨reached, heads, oneSided⟩, decided⟩
      · cases decided
  · rcases decision_of_not_open reached with found | found <;> rw [found] at decided <;> cases decided

variable {direction : Direction}

theorem carry_removal {moving standing : Option State}
    (removes : (carry inputs path direction moving standing was).removal = some action) :
    ∃ kind, action = .remove direction path kind := by
  cases moving with
  | none =>
    simp only [carry, Decision.removal, Option.map_eq_some_iff] at removes
    obtain ⟨was, _, rfl⟩ := removes
    exact ⟨was.kind, rfl⟩
  | some state =>
    simp only [carry, Decision.removal, Option.bind_eq_some_iff] at removes
    obtain ⟨standing, _, removes⟩ := removes
    split at removes
    · cases removes
      exact ⟨standing.kind, rfl⟩
    · cases removes

theorem place_direction {state : State} (placed : place direction path state inputs was = .ok action) :
    action.path = path ∧ action.direction = direction ∧ action.removesFromHost = false := by
  simp only [place] at placed
  split at placed
  · cases placed
    simp [Action.path, Action.direction, Action.removesFromHost]
  · split at placed <;> cases placed
    simp [Action.path, Action.direction, Action.removesFromHost]
  · cases placed
    simp [Action.path, Action.direction, Action.removesFromHost]

theorem decision_removal (removes : (decision toLowercase inputs path).removal = some action) :
    ∃ direction kind, action = .remove direction path kind ∧ Carries toLowercase inputs path direction := by
  cases decided : decision toLowercase inputs path with
  | carry removal placement =>
    obtain ⟨direction, carries, carried⟩ := decision_carry decided
    rw [decided, ← carried] at removes
    obtain ⟨kind, rfl⟩ := carry_removal removes
    exact ⟨direction, kind, rfl, carries⟩
  | leave | forget | settle settled => simp [decided, Decision.removal] at removes

theorem decision_creation (creates : (decision toLowercase inputs path).creation = some action) :
    ∃ state, (inputs.moving action.direction).get? path = some state ∧
      place action.direction path state inputs (inputs.ledger.entries.get? path) = .ok action ∧
      Carries toLowercase inputs path action.direction := by
  cases decided : decision toLowercase inputs path with
  | carry removal placement =>
    obtain ⟨direction, carries, carried⟩ := decision_carry decided
    rw [decided, ← carried] at creates
    cases moves : (inputs.moving direction).get? path with
    | none => simp [moves, carry, Decision.creation] at creates
    | some state =>
      rw [moves] at creates
      simp only [carry] at creates
      cases placed : place direction path state inputs (inputs.ledger.entries.get? path) with
      | error refusal => simp [placed, Decision.creation] at creates
      | ok created =>
        obtain rfl : created = action := by simpa [placed, Decision.creation] using creates
        obtain ⟨_, rfl, _⟩ := place_direction placed
        exact ⟨state, moves, placed, carries⟩
  | leave | forget | settle settled => simp [decided, Decision.creation] at creates

theorem Carries.standing_unchanged {held : State}
    (carries : Carries toLowercase inputs path direction) (unresolved : inputs.resolved.get? path = none)
    (standing : (inputs.standing direction).get? path = some held) :
    moved (some held) (inputs.ledger.entries.get? path) = .unchanged := by
  have heads := carries.heads
  have oneSided := carries.oneSided
  simp only [resolution, unresolved, Option.filter_none, Option.isNone_none, and_true, heading] at heads oneSided
  apply moved_eq_unchanged
  cases hostChanged : (inputs.hostMoved path).changed with
  | true =>
    simp only [hostChanged, if_true, Option.some.injEq] at heads
    subst heads
    simp only [Inputs.standing, Direction.sourceIsHost, if_true] at standing
    simpa [hostChanged, Inputs.guestMoved, standing] using oneSided
  | false =>
    simp only [hostChanged, Bool.false_eq_true, if_false] at heads
    split at heads
    · cases heads
      simp only [Inputs.standing, Direction.sourceIsHost, Bool.false_eq_true, if_false] at standing
      simpa [Inputs.hostMoved, standing] using hostChanged
    · cases heads

theorem decision_refusal {refusal : Oversize}
    (refused : (decision toLowercase inputs path).refusal = some refusal) : refusal.path = path := by
  cases decided : decision toLowercase inputs path with
  | carry removal placement =>
    obtain ⟨direction, carries, carried⟩ := decision_carry decided
    rw [decided, ← carried] at refused
    cases moves : (inputs.moving direction).get? path with
    | none => simp [moves, carry, Decision.refusal] at refused
    | some state =>
      simp only [moves, carry, place] at refused
      split at refused
      · simp [Decision.refusal] at refused
      · split at refused <;> simp [Decision.refusal] at refused
        rw [← refused]
      · simp [Decision.refusal] at refused
  | leave | forget | settle settled => simp [decided, Decision.refusal] at refused

end

@[ext] structure PathPlan where
  actions : List Action
  adopt : List Agreed
  forget : Bool
  conflicts : List ConflictKind
  withheld : Bool
  oversize : List Oversize

def Plan.at (plan : Plan) (path : Path) : PathPlan where
  actions := plan.actions.filter fun action => action.path = path
  adopt := (plan.adopt.filter fun entry => entry.1 = path).map Prod.snd
  forget := path ∈ plan.forget
  conflicts := (plan.conflicts.filter fun conflict => conflict.path = path).map Conflict.kind
  withheld := plan.bulkDelete.any fun bulk => path ∈ bulk.paths
  oversize := plan.oversize.filter fun refusal => refusal.path = path

section

variable (toLowercase : Path → Path) (inputs : Inputs)

def guardFires : Bool :=
  BulkDelete.triggered ((draft toLowercase inputs).removals.filter Action.removesFromHost).length
    inputs.ledger.entries.size

def heldBack (action : Action) : Bool :=
  guardFires toLowercase inputs && action.removesFromHost &&
    inputs.resolved.get? action.path != some Winner.guest

variable {toLowercase inputs}

theorem draft_eq : draft toLowercase inputs = (let decide := decidePath inputs (colliding toLowercase inputs)
     { removals := inputs.paths.flatMap fun path => (decide path).removal.toList
       creations := inputs.paths.flatMap fun path => (decide path).creation.toList
       adopt := inputs.paths.flatMap fun path => ((decide path).adopted.map (path, ·)).toList
       forget := inputs.paths.flatMap fun path => if (decide path).forgets then [path] else []
       conflicts := inputs.paths.flatMap fun path => ((decide path).conflict.map (Conflict.mk path)).toList
       oversize := inputs.paths.flatMap fun path => (decide path).refusal.toList }) := by
  rw [draft, Draft.foldl_record]
  simp

theorem gathered_at (part : Path → Decision → Option α) (key : α → Path) (path : Path)
    (silent : ∀ path, part path .leave = none)
    (keyed : ∀ path item, part path (decision toLowercase inputs path) = some item → key item = path) :
    (inputs.paths.flatMap fun path =>
        (part path (decidePath inputs (colliding toLowercase inputs) path)).toList).filter
          (fun item => key item = path) =
      (part path (decision toLowercase inputs path)).toList := by
  have decided : ∀ path ∈ inputs.paths,
      decidePath inputs (colliding toLowercase inputs) path = decision toLowercase inputs path :=
    fun path known => by simp [decision, known]
  rw [flatMap_congr fun path known => by rw [decided path known],
    filter_flatMap_toList key (fun path => part path (decision toLowercase inputs path)) _ paths_nodup keyed]
  split
  · rfl
  · next unknown => simp [decision, unknown, silent]

theorem sorted_removals_length :
    (((draft toLowercase inputs).removals.insertionSort fun left right => right.path ≤ left.path).filter
      Action.removesFromHost).length = ((draft toLowercase inputs).removals.filter Action.removesFromHost).length :=
  ((perm_insertionSort _ _).filter _).length_eq

theorem reconcile_actions : (reconcile toLowercase inputs).actions =
    ((draft toLowercase inputs).removals.insertionSort fun left right => right.path ≤ left.path).filter
        (fun action => !heldBack toLowercase inputs action) ++
      (draft toLowercase inputs).creations.insertionSort fun left right => left.path ≤ right.path := by
  simp only [reconcile, withholdBulkDelete, sorted_removals_length]
  split
  · next quiet =>
    have calm : guardFires toLowercase inputs = false := by simpa [guardFires] using quiet
    simp [heldBack, calm]
  · next fires =>
    have stormy : guardFires toLowercase inputs = true := by simpa [guardFires] using fires
    simp [heldBack, stormy, bne]

theorem any_mem_paths (paths : List Path) (agreed : Nat) (path : Path) :
    (if paths.isEmpty then none else some (⟨paths, agreed⟩ : BulkDelete)).any (fun bulk => path ∈ bulk.paths) =
      decide (path ∈ paths) := by
  cases paths <;> simp

theorem reconcile_withheld : (reconcile toLowercase inputs).bulkDelete.any (fun bulk => path ∈ bulk.paths) =
      ((draft toLowercase inputs).removals.filter fun action => action.path = path).any
        (heldBack toLowercase inputs) := by
  simp only [reconcile, withholdBulkDelete, sorted_removals_length]
  split
  · next quiet =>
    have calm : guardFires toLowercase inputs = false := by simpa [guardFires] using quiet
    simp [heldBack, calm]
  rename_i fires
  have stormy : guardFires toLowercase inputs = true := by simpa [guardFires] using fires
  rw [any_mem_paths, Bool.eq_iff_iff]
  simp only [decide_eq_true_eq, mem_insertionSort, mem_map, List.mem_filter, any_eq_true,
    heldBack, stormy, Bool.true_and, bne]
  constructor
  · rintro ⟨action, ⟨removal, held⟩, same⟩
    exact ⟨action, ⟨removal, same⟩, by simpa using held⟩
  · rintro ⟨action, ⟨removal, same⟩, held⟩
    exact ⟨action, ⟨removal, by simpa using held⟩, same⟩

theorem removals_at (path : Path) : (draft toLowercase inputs).removals.filter (fun action => action.path = path) =
      (decision toLowercase inputs path).removal.toList := by
  rw [draft_eq]
  refine gathered_at (fun _ => Decision.removal) Action.path path (fun _ => rfl) fun path action removes => ?_
  obtain ⟨direction, kind, rfl, _⟩ := decision_removal removes
  rfl

theorem creations_at (path : Path) : (draft toLowercase inputs).creations.filter (fun action => action.path = path) =
      (decision toLowercase inputs path).creation.toList := by
  rw [draft_eq]
  refine gathered_at (fun _ => Decision.creation) Action.path path (fun _ => rfl) fun path action creates => ?_
  obtain ⟨_, _, placed, _⟩ := decision_creation creates
  exact (place_direction placed).1

theorem perm_toList {list : List α} {item : Option α} (perm : list.Perm item.toList) : list = item.toList := by
  cases item with
  | none => exact perm_nil.mp perm
  | some item => exact perm_singleton.mp perm

theorem reconcile_at (path : Path) : (reconcile toLowercase inputs).at path =
    (let decision := decision toLowercase inputs path
     { actions := decision.removal.toList.filter (fun action => !heldBack toLowercase inputs action) ++
         decision.creation.toList
       adopt := decision.adopted.toList
       forget := decision.forgets
       conflicts := decision.conflict.toList
       withheld := decision.removal.any (heldBack toLowercase inputs)
       oversize := decision.refusal.toList }) := by
  ext1
  · have removals : ((draft toLowercase inputs).removals.insertionSort fun left right => right.path ≤ left.path).filter
        (fun action => action.path = path) = (decision toLowercase inputs path).removal.toList :=
      perm_toList (removals_at path ▸ (perm_insertionSort _ _).filter _)
    have creations : ((draft toLowercase inputs).creations.insertionSort
        fun left right => left.path ≤ right.path).filter (fun action => action.path = path) =
          (decision toLowercase inputs path).creation.toList :=
      perm_toList (creations_at path ▸ (perm_insertionSort _ _).filter _)
    simp only [Plan.at, reconcile_actions, filter_append, creations]
    rw [filter_filter]
    simp only [Bool.and_comm]
    rw [← filter_filter, removals]
  · simp only [Plan.at, reconcile, draft_eq]
    rw [gathered_at (fun path decision => decision.adopted.map (path, ·)) Prod.fst path (fun _ => rfl)]
    · simp [Option.toList_map]
    intro path entry adopts
    obtain ⟨agreed, _, rfl⟩ := Option.map_eq_some_iff.mp adopts
    rfl
  · simp only [Plan.at, reconcile, draft_eq]
    rw [Bool.eq_iff_iff]
    simp only [decide_eq_true_eq, mem_flatMap]
    constructor
    · rintro ⟨other, known, found⟩
      split at found
      · next forgets =>
        obtain rfl := mem_singleton.mp found
        simpa [decision, known] using forgets
      · cases found
    intro forgets
    by_cases known : path ∈ inputs.paths
    · refine ⟨path, known, ?_⟩
      simp only [decision, known, if_true] at forgets
      simp [forgets]
    · simp [decision, known, Decision.forgets] at forgets
  · simp only [Plan.at, reconcile, draft_eq]
    rw [gathered_at (fun path decision => decision.conflict.map (Conflict.mk path)) Conflict.path path
      (fun _ => rfl)]
    · cases (decision toLowercase inputs path).conflict <;> rfl
    intro path conflict reports
    obtain ⟨kind, _, rfl⟩ := Option.map_eq_some_iff.mp reports
    rfl
  · simp only [Plan.at, reconcile_withheld, removals_at]
    cases (decision toLowercase inputs path).removal <;> simp
  · simp only [Plan.at, reconcile, draft_eq]
    exact gathered_at (fun _ => Decision.refusal) Oversize.path path (fun _ => rfl) fun _ _ => decision_refusal

variable (planned : action ∈ (reconcile toLowercase inputs).actions)
include planned

theorem mem_actions :
    ((decision toLowercase inputs action.path).removal = some action ∧ heldBack toLowercase inputs action = false) ∨
      (decision toLowercase inputs action.path).creation = some action := by
  have here : action ∈ ((reconcile toLowercase inputs).at action.path).actions :=
    List.mem_filter.mpr ⟨planned, by simp⟩
  rw [reconcile_at] at here
  simpa [List.mem_filter] using here

theorem mem_actions_carries : Carries toLowercase inputs action.path action.direction := by
  rcases mem_actions planned with ⟨removes, _⟩ | creates
  · obtain ⟨direction, kind, same, carries⟩ := decision_removal removes
    rw [same] at carries ⊢
    exact carries
  · obtain ⟨_, _, _, carries⟩ := decision_creation creates
    exact carries

end

section

variable (toLowercase : Path → Path) (inputs : Inputs)

def Inputs.resolve (path : Path) (winner : Winner) : Inputs :=
  { inputs with resolved := inputs.resolved.insert path winner }

def Inputs.unresolve (path : Path) : Inputs := { inputs with resolved := inputs.resolved.erase path }

/-- A removal from the host is decided at a path and not answered in the guest's favour. -/
def Unanswered (path : Path) : Prop :=
  (∃ kind, (decision toLowercase inputs path).removal = some (.remove .toHost path kind)) ∧
    inputs.resolved.get? path ≠ some .guest

variable {toLowercase inputs}

theorem decision_congr {resolved resolved' : SortedMap Path Winner} {path : Path}
    (same : resolved.get? path = resolved'.get? path) : decision toLowercase { inputs with resolved } path =
      decision toLowercase { inputs with resolved := resolved' } path := by
  simp only [decision, decidePath, resolution, same]
  rfl

theorem heldBack_iff (removes : (decision toLowercase inputs path).removal = some action) :
    heldBack toLowercase inputs action = true ↔
      guardFires toLowercase inputs = true ∧ Unanswered toLowercase inputs path := by
  obtain ⟨direction, kind, rfl, _⟩ := decision_removal removes
  simp only [heldBack, Bool.and_eq_true, bne_iff_ne, Action.path, Unanswered, removes, Option.some.injEq, and_assoc]
  refine and_congr_right fun _ => and_congr_left fun _ => ?_
  cases direction <;> simp [Action.removesFromHost]

theorem resolve_unresolve_at {other : Path} (apart : other ≠ path) :
    (inputs.resolve path winner).resolved.get? other = inputs.resolved.get? other ∧
      (inputs.unresolve path).resolved.get? other = inputs.resolved.get? other := by
  simp [Inputs.resolve, Inputs.unresolve, SortedMap.get?_insert, SortedMap.get?_erase, apart]

theorem unanswered_congr {resolved : SortedMap Path Winner} (same : resolved.get? path = inputs.resolved.get? path) :
    Unanswered toLowercase { inputs with resolved } path ↔ Unanswered toLowercase inputs path := by
  have decided : decision toLowercase { inputs with resolved } path = decision toLowercase inputs path :=
    @decision_congr toLowercase inputs resolved inputs.resolved path same
  simp only [Unanswered, decided, same]

theorem at_resolve_iff {other : Path} (apart : other ≠ path) :
    (reconcile toLowercase (inputs.resolve path winner)).at other =
        (reconcile toLowercase (inputs.unresolve path)).at other ↔
      guardFires toLowercase (inputs.resolve path winner) = guardFires toLowercase (inputs.unresolve path) ∨
        ¬ Unanswered toLowercase inputs other := by
  obtain ⟨kept, kept'⟩ := resolve_unresolve_at apart
  have decided : decision toLowercase (inputs.resolve path winner) other = decision toLowercase inputs other :=
    decision_congr kept
  have decided' : decision toLowercase (inputs.unresolve path) other = decision toLowercase inputs other :=
    decision_congr kept'
  simp only [reconcile_at, decided, decided', PathPlan.mk.injEq, true_and, and_true, append_cancel_right_eq]
  cases removes : (decision toLowercase inputs other).removal with
  | none => simp [Unanswered, removes]
  | some action =>
    have held := heldBack_iff (decided ▸ removes)
    have held' := heldBack_iff (decided' ▸ removes)
    rw [show Unanswered toLowercase (inputs.resolve path winner) other ↔ Unanswered toLowercase inputs other from
      unanswered_congr kept] at held
    rw [show Unanswered toLowercase (inputs.unresolve path) other ↔ Unanswered toLowercase inputs other from
      unanswered_congr kept'] at held'
    simp only [Option.toList_some, Option.any_some, filter_cons, filter_nil]
    by_cases unanswered : Unanswered toLowercase inputs other
    · simp only [unanswered, and_true, ← Bool.eq_iff_iff] at held held'
      rw [held, held']
      simp only [unanswered, not_true_eq_false, or_false, and_iff_right_iff_imp]
      intro same
      rw [same]
    · simp only [unanswered, and_false, iff_false, Bool.not_eq_true] at held held'
      simp [held, held', unanswered]

/-- A path is settled: adopted or reported as a conflict, and nothing is done at it. -/
def SettledAt (plan : Plan) (path : Path) : Prop :=
  ((plan.at path).adopt ≠ [] ∨ (plan.at path).conflicts ≠ []) ∧ (plan.at path).actions = []

theorem settledAt_iff_open (host : (inputs.hostMoved path).changed)
    (guest : (inputs.guestMoved path).changed) (unresolved : inputs.resolved.get? path = none) :
    SettledAt (reconcile toLowercase inputs) path ↔ Open toLowercase inputs path := by
  rw [SettledAt, reconcile_at]
  dsimp only
  constructor
  · intro settled
    by_contra closed
    rcases decision_of_not_open closed with found | found <;>
      simp [found, Decision.adopted, Decision.conflict] at settled
  intro reached
  rw [reached.decision_eq]
  simp only [host, guest, resolution, unresolved, Option.filter_none, Option.isNone_none, and_self, if_true]
  cases settleBoth (inputs.host.get? path) (inputs.guest.get? path) (inputs.ledger.entries.get? path) <;>
    simp [Decision.adopted, Decision.conflict, Decision.removal, Decision.creation]

/-- The removals from the host that a plan is left with, but for those answered in the guest's favour. -/
def unansweredRemovals (plan : Plan) (inputs : Inputs) : Nat :=
  (plan.actions.filter fun action =>
    action.removesFromHost && inputs.resolved.get? action.path != some Winner.guest).length

theorem unansweredRemovals_bound (toLowercase : Path → Path) (inputs : Inputs) :
    unansweredRemovals (reconcile toLowercase inputs) inputs = 0 ∨
      unansweredRemovals (reconcile toLowercase inputs) inputs ≤ bulkDeleteFloor ∨
      2 * unansweredRemovals (reconcile toLowercase inputs) inputs ≤ inputs.ledger.entries.size := by
  have creations : ((draft toLowercase inputs).creations.insertionSort fun left right => left.path ≤ right.path).filter
      (fun action => action.removesFromHost && inputs.resolved.get? action.path != some Winner.guest) = [] := by
    rw [filter_eq_nil_iff]
    intro action member
    have here : action ∈ (draft toLowercase inputs).creations.filter (fun other => other.path = action.path) :=
      List.mem_filter.mpr ⟨(mem_insertionSort _).mp member, by simp⟩
    rw [creations_at] at here
    obtain ⟨_, _, placed, _⟩ := decision_creation (Option.mem_toList.mp here)
    simp [(place_direction placed).2.2]
  rw [unansweredRemovals, reconcile_actions, filter_append, creations, append_nil, filter_filter]
  cases fires : guardFires toLowercase inputs with
  | true =>
    left
    rw [length_eq_zero_iff, filter_eq_nil_iff]
    intro action _
    simp only [heldBack, fires, Bool.true_and]
    cases action.removesFromHost && inputs.resolved.get? action.path != some Winner.guest <;> simp
  | false =>
    right
    have fewer : (((draft toLowercase inputs).removals.insertionSort fun left right => right.path ≤ left.path).filter
        fun action => action.removesFromHost && inputs.resolved.get? action.path != some Winner.guest &&
          !heldBack toLowercase inputs action).length ≤
        ((draft toLowercase inputs).removals.filter Action.removesFromHost).length := by
      rw [((perm_insertionSort _ _).filter _).length_eq]
      refine List.Sublist.length_le (monotone_filter_right _ fun action held => ?_)
      simp only [Bool.and_eq_true] at held
      exact held.1.1
    simp only [guardFires, BulkDelete.triggered, Bool.and_eq_false_iff, decide_eq_false_iff_not, not_lt] at fires
    rcases fires with few | half
    · exact .inl (fewer.trans few)
    · exact .inr ((Nat.mul_le_mul_left 2 fewer).trans half)

/-- What `reconcile` guards, for every input. Without a resolution, an action is planned onto what a side holds
only where that side is unchanged. A path that both sides changed is settled exactly when the loop reaches it. A
resolution leaves another path's plan as it is exactly when the resolution does not move the count of removals
across the guard's threshold, or the other path has no removal from the host that the guard could hold back. And
the removals from the host that are left are none, or no more than the floor or half of the ledger. -/
theorem reconcile_protects_both_sides (toLowercase : Path → Path) (inputs : Inputs) :
    (∀ action ∈ (reconcile toLowercase inputs).actions, inputs.resolved.get? action.path = none →
      ∀ held, (inputs.standing action.direction).get? action.path = some held →
        moved (some held) (inputs.ledger.entries.get? action.path) = .unchanged) ∧
    (∀ path, (inputs.hostMoved path).changed → (inputs.guestMoved path).changed →
      inputs.resolved.get? path = none →
        (SettledAt (reconcile toLowercase inputs) path ↔ Open toLowercase inputs path)) ∧
    (∀ path winner other, other ≠ path →
      ((reconcile toLowercase (inputs.resolve path winner)).at other =
          (reconcile toLowercase (inputs.unresolve path)).at other ↔
        guardFires toLowercase (inputs.resolve path winner) = guardFires toLowercase (inputs.unresolve path) ∨
          ¬ Unanswered toLowercase inputs other)) ∧
    (unansweredRemovals (reconcile toLowercase inputs) inputs = 0 ∨
      unansweredRemovals (reconcile toLowercase inputs) inputs ≤ bulkDeleteFloor ∨
      2 * unansweredRemovals (reconcile toLowercase inputs) inputs ≤ inputs.ledger.entries.size) := by
  refine ⟨?_, fun path host guest unresolved => settledAt_iff_open host guest unresolved,
    fun path winner other apart => at_resolve_iff apart, unansweredRemovals_bound toLowercase inputs⟩
  intro action planned unresolved held standing
  exact (mem_actions_carries planned).standing_unchanged unresolved standing

end

/-- Twenty-one agreed files that the host still holds and the guest has deleted. -/
def twentyOneDeleted : Inputs where
  host := ⟨(List.range 21).map fun index => ([Char.ofNat (97 + index)], ⟨.file, 1, 0, none, none, false⟩), by decide⟩
  guest := .empty
  ledger := ⟨⟨(List.range 21).map fun index => ([Char.ofNat (97 + index)], ⟨.file, ['d'], ⟨1, 0⟩, ⟨1, 0⟩⟩), by decide⟩⟩
  undecided := []
  guestOwned := []
  resolved := .empty
  maxFileBytes := 8
  caseFolding := false

/-- Answering one of twenty-one deletions in the host's favour lets the other twenty through: unanswered, the plan
removes nothing from the host. -/
theorem resolution_releases_other_paths : (reconcile id (twentyOneDeleted.unresolve ['a'])).actions = [] ∧
      ((reconcile id (twentyOneDeleted.resolve ['a'] .host)).at ['b']).actions = [.remove .toHost ['b'] .file] ∧
      unansweredRemovals (reconcile id (twentyOneDeleted.resolve ['a'] .host)) twentyOneDeleted = 20 := by
  decide +kernel

/-! ## What a reconciliation adopts: files above the size cap have no digest and are never told apart -/

/-- What a side really holds at a path. -/
inductive Object (Content : Type) where
  | file (content : Content)
  | dir
  | symlink (target : Content)
  deriving DecidableEq

variable {Content : Type}

def Object.kind : Object Content → Kind
  | .file _ => .file
  | .dir => .dir
  | .symlink _ => .symlink

section

variable (hash : Content → Digest)

def Object.digest : Object Content → Digest
  | .file content => hash content
  | .dir => []
  | .symlink target => hash target

/-- A state that a scan found. A file above the cap is not hashed; besides it, a digest is missing only for a
directory and for what the pre-filter vouched for. -/
structure Scanned (was : Option Agreed) (cap : Nat) (object : Object Content) (state : State) : Prop where
  kind : state.kind = object.kind
  hashed : ∀ digest, state.digest = some digest → digest = object.digest hash
  unhashed : state.digest = none → object = .dir ∨ state.oversize = true ∨
    ∃ agreed, was = some agreed ∧ agreed.kind = object.kind ∧ agreed.digest = object.digest hash
  guarded : state.oversize = true → object.kind = .file ∧ cap < state.size
  large : object.kind = .file → cap < state.size → state.digest = none

variable {hash} {was : Option Agreed} {cap : Nat} {host guest state : State}
  {object onHost onGuest : Object Content}

theorem moved_of_oversize (large : state.oversize = true) : (moved (some state) was).changed = true := by
  cases was with
  | none => rfl
  | some agreed =>
    rw [moved, if_pos large]
    split <;> rfl

/-- A side that changed has the digest of what it holds, unless it is too large or a directory. -/
theorem Scanned.digest_of_changed (scanned : Scanned hash was cap object state)
    (changed : (moved (some state) was).changed = true) :
    object = .dir ∨ state.oversize = true ∨ state.digest = some (object.digest hash) := by
  cases found : state.digest with
  | some digest => exact .inr (.inr (congrArg some (scanned.hashed digest found)))
  | none =>
    rcases scanned.unhashed found with dir | large | ⟨agreed, rfl, kind, _⟩
    · exact .inl dir
    · exact .inr (.inl large)
    cases small : state.oversize with
    | true => exact .inr (.inl rfl)
    | false =>
      rw [moved, if_neg (by rw [scanned.kind, kind]; exact fun other => other rfl), small, digestOf, found] at changed
      exact absurd changed (by simp [Moved.changed])

theorem digestOrAgreed_some {digest : Digest} (found : state.digest = some digest) :
    digestOrAgreed state was = digest := by
  cases was <;> simp [digestOrAgreed, digestOf, standaloneDigest, found]

theorem digestOrAgreed_none (missing : state.digest = none) :
    digestOrAgreed state was = (was.map Agreed.digest).getD [] := by
  cases was <;> simp [digestOrAgreed, digestOf, standaloneDigest, missing]

theorem settleBoth_adopt {held held' : Option State} {agreed : Agreed}
    (settles : settleBoth held held' was = .adopt agreed) : ∃ host guest, held = some host ∧ held' = some guest ∧
      host.kind = guest.kind ∧ digestOrAgreed host was = digestOrAgreed guest was := by
  cases held with
  | none => cases settles
  | some host =>
    cases held' with
    | none => cases settles
    | some guest =>
      rw [settleBoth] at settles
      split at settles
      · cases settles
      · next kinds =>
        split at settles
        · next digests => exact ⟨host, guest, rfl, rfl, not_not.mp kinds, digests⟩
        · cases settles

theorem Object.eq_dir (dir : object.kind = .dir) : object = .dir := by
  cases object with
  | dir => rfl
  | file content => cases dir
  | symlink target => cases dir

theorem Object.eq_of_digest (faithful : hash.Injective) (kinds : onHost.kind = onGuest.kind)
    (digests : onHost.digest hash = onGuest.digest hash) : onHost = onGuest := by
  cases onHost <;> cases onGuest <;> simp_all [Object.kind, Object.digest, faithful.eq_iff]

/-- Sides that changed and are hashed hold the same where their digests are the same. -/
theorem same_of_digests (faithful : hash.Injective) (hostScan : Scanned hash was cap onHost host)
    (guestScan : Scanned hash was cap onGuest guest) (hostChanged : (moved (some host) was).changed = true)
    (guestChanged : (moved (some guest) was).changed = true) (kinds : host.kind = guest.kind)
    (digests : digestOrAgreed host was = digestOrAgreed guest was) (hostSmall : ¬ host.oversize = true)
    (guestSmall : ¬ guest.oversize = true) : onHost = onGuest := by
  have objects : onHost.kind = onGuest.kind := by rw [← hostScan.kind, ← guestScan.kind, kinds]
  rcases hostScan.digest_of_changed hostChanged with rfl | large | hashed
  · exact (Object.eq_dir objects.symm).symm
  · exact absurd large hostSmall
  rcases guestScan.digest_of_changed guestChanged with rfl | large | hashed'
  · exact Object.eq_dir objects
  · exact absurd large guestSmall
  · rw [digestOrAgreed_some hashed, digestOrAgreed_some hashed'] at digests
    exact Object.eq_of_digest faithful objects digests

/-! ## The plan -/

variable {toLowercase : Path → Path} {inputs : Inputs} {path : Path} {agreed : Agreed}

theorem mem_adopt_iff : agreed ∈ ((reconcile toLowercase inputs).at path).adopt ↔
    Open toLowercase inputs path ∧ inputs.resolved.get? path = none ∧ (inputs.hostMoved path).changed = true ∧
      (inputs.guestMoved path).changed = true ∧
      settleBoth (inputs.host.get? path) (inputs.guest.get? path) (inputs.ledger.entries.get? path) = .adopt agreed := by
  rw [reconcile_at, Option.mem_toList]
  constructor
  · intro adopts
    by_cases reached : Open toLowercase inputs path
    · by_cases both : (inputs.hostMoved path).changed = true ∧ (inputs.guestMoved path).changed = true ∧
          inputs.resolved.get? path = none
      · obtain ⟨host, guest, unresolved⟩ := both
        rw [reached.decision_both unresolved host guest] at adopts
        refine ⟨reached, unresolved, host, guest, ?_⟩
        revert adopts
        cases settleBoth _ _ _ <;> simp [Decision.adopted]
      rw [reached.decision_eq, if_neg] at adopts
      · revert adopts
        cases heading _ _ _ with
        | none => simp [Decision.adopted]
        | some direction => cases moving : (inputs.moving direction).get? path <;> simp [carry, moving, Decision.adopted]
      rintro ⟨host, guest, unresolved⟩
      refine both ⟨host, guest, ?_⟩
      cases chosen : inputs.resolved.get? path with
      | none => rfl
      | some winner => simp [resolution, chosen, host] at unresolved
    · rcases decision_of_not_open reached with closed | closed <;> simp [closed, Decision.adopted] at adopts
  · rintro ⟨reached, unresolved, host, guest, settles⟩
    rw [reached.decision_both unresolved host guest, settles]
    rfl

/-- What is held at the paths of a tree is what its states were found by scanning. -/
def Describes (hash : Content → Digest) (inputs : Inputs) (tree : Tree) (holds : Path → Object Content) : Prop :=
  ∀ path state, tree.get? path = some state →
    Scanned hash (inputs.ledger.entries.get? path) inputs.maxFileBytes (holds path) state

/-- Different files above the cap on the two sides of a path. -/
structure LargeAndDifferent (inputs : Inputs) (hostHolds guestHolds : Path → Object Content) (path : Path)
    (host guest : State) : Prop where
  hostHeld : inputs.host.get? path = some host
  guestHeld : inputs.guest.get? path = some guest
  hostFile : host.kind = .file
  guestFile : guest.kind = .file
  hostLarge : inputs.maxFileBytes < host.size
  guestLarge : inputs.maxFileBytes < guest.size
  apart : hostHolds path ≠ guestHolds path

/-- Agreement is about the same kind and content, and different files above the cap are reported. -/
structure AdoptsSame (toLowercase : Path → Path) (inputs : Inputs) (hostHolds guestHolds : Path → Object Content) :
    Prop where
  same : ∀ path agreed, agreed ∈ ((reconcile toLowercase inputs).at path).adopt → hostHolds path = guestHolds path
  reported : ∀ path host guest, Open toLowercase inputs path →
    LargeAndDifferent inputs hostHolds guestHolds path host guest →
    ((reconcile toLowercase inputs).at path).conflicts ≠ [] ∨ ((reconcile toLowercase inputs).at path).oversize ≠ []

/-- At every path that both sides moved and nobody answered for, entries of one kind of which one is above the cap
differ in the digests that stand for them, or are the same. -/
def ToldApart (toLowercase : Path → Path) (inputs : Inputs) (hostHolds guestHolds : Path → Object Content) : Prop :=
  ∀ path host guest, Open toLowercase inputs path → inputs.resolved.get? path = none →
    inputs.host.get? path = some host → inputs.guest.get? path = some guest → host.kind = guest.kind →
    host.oversize = true ∨ guest.oversize = true → (inputs.hostMoved path).changed = true →
    (inputs.guestMoved path).changed = true →
    digestOrAgreed host (inputs.ledger.entries.get? path) = digestOrAgreed guest (inputs.ledger.entries.get? path) →
    hostHolds path = guestHolds path

theorem refusal_of_large {direction : Direction} {standing : Option State} (file : state.kind = .file)
    (large : inputs.maxFileBytes < state.size) :
    (carry inputs path direction (some state) standing was).refusal ≠ none := by
  simp [carry, place, file, large, Decision.refusal]

variable {hostHolds guestHolds : Path → Object Content}

/-- Of two different files above the cap one at least is not vouched for. -/
theorem LargeAndDifferent.oversize (large : LargeAndDifferent inputs hostHolds guestHolds path host guest)
    (faithful : hash.Injective) (hostScan : Scanned hash was inputs.maxFileBytes (hostHolds path) host)
    (guestScan : Scanned hash was inputs.maxFileBytes (guestHolds path) guest) :
    host.digest = none ∧ guest.digest = none ∧ (host.oversize = true ∨ guest.oversize = true) := by
  have kind := hostScan.kind.symm.trans large.hostFile
  have kind' := guestScan.kind.symm.trans large.guestFile
  have missing := hostScan.large kind large.hostLarge
  have missing' := guestScan.large kind' large.guestLarge
  refine ⟨missing, missing', ?_⟩
  rcases hostScan.unhashed missing with dir | flagged | ⟨agreed, rfl, _, digest⟩
  · rw [dir] at kind
    cases kind
  · exact .inl flagged
  rcases guestScan.unhashed missing' with dir | flagged | ⟨_, same, _, digest'⟩
  · rw [dir] at kind'
    cases kind'
  · exact .inr flagged
  · cases same
    exact absurd (Object.eq_of_digest faithful (kind.trans kind'.symm) (digest.symm.trans digest')) large.apart

/-- What is not vouched for is reported, whoever is to win: a file above the cap is never carried. -/
theorem reported_of_toldApart (faithful : hash.Injective) (hostTree : Describes hash inputs inputs.host hostHolds)
    (guestTree : Describes hash inputs inputs.guest guestHolds)
    (told : ToldApart toLowercase inputs hostHolds guestHolds) (reached : Open toLowercase inputs path)
    (large : LargeAndDifferent inputs hostHolds guestHolds path host guest) :
    ((reconcile toLowercase inputs).at path).oversize ≠ [] := by
  obtain ⟨missing, missing', flagged⟩ :=
    large.oversize faithful (hostTree path host large.hostHeld) (guestTree path guest large.guestHeld)
  have changed : (inputs.hostMoved path).changed = true ∨ (inputs.guestMoved path).changed = true := by
    rw [Inputs.hostMoved, Inputs.guestMoved, large.hostHeld, large.guestHeld]
    exact flagged.imp moved_of_oversize moved_of_oversize
  have refused : (decision toLowercase inputs path).refusal ≠ none := by
    cases chosen : inputs.resolved.get? path with
    | some winner =>
      rw [reached.decision_resolved chosen changed]
      cases winner with
      | host => exact large.hostHeld ▸ refusal_of_large large.hostFile large.hostLarge
      | guest => exact large.guestHeld ▸ refusal_of_large large.guestFile large.guestLarge
    | none =>
      cases hostChanged : (inputs.hostMoved path).changed with
      | false =>
        rw [reached.decision_guest chosen hostChanged (by simpa [hostChanged] using changed), large.guestHeld]
        exact refusal_of_large large.guestFile large.guestLarge
      | true =>
        cases guestChanged : (inputs.guestMoved path).changed with
        | false =>
          rw [reached.decision_host chosen hostChanged guestChanged, large.hostHeld]
          exact refusal_of_large large.hostFile large.hostLarge
        | true =>
          refine absurd (told path host guest reached chosen large.hostHeld large.guestHeld
            (large.hostFile.trans large.guestFile.symm) flagged hostChanged guestChanged ?_) large.apart
          rw [digestOrAgreed_none missing, digestOrAgreed_none missing']
  rw [reconcile_at]
  simpa [Option.eq_none_iff_forall_not_mem] using refused

end

/-- Agreement is about the same content exactly where the entries that have no digest of their own are told apart. -/
theorem adoptsSame_iff_toldApart {hash : Content → Digest} (faithful : hash.Injective) (toLowercase : Path → Path)
    {inputs : Inputs} {hostHolds guestHolds : Path → Object Content}
    (hostTree : Describes hash inputs inputs.host hostHolds)
    (guestTree : Describes hash inputs inputs.guest guestHolds) :
    AdoptsSame toLowercase inputs hostHolds guestHolds ↔ ToldApart toLowercase inputs hostHolds guestHolds := by
  constructor
  · intro adopts path host guest reached unresolved heldHost heldGuest kinds _ hostChanged guestChanged digests
    exact adopts.same path _ (mem_adopt_iff.mpr ⟨reached, unresolved, hostChanged, guestChanged,
      by rw [heldHost, heldGuest, settleBoth, if_neg (not_not.mpr kinds), if_pos digests]⟩)
  intro told
  refine ⟨fun path agreed adopted => ?_, fun path host guest reached large =>
    .inr (reported_of_toldApart faithful hostTree guestTree told reached large)⟩
  obtain ⟨reached, unresolved, hostChanged, guestChanged, settles⟩ := mem_adopt_iff.mp adopted
  obtain ⟨host, guest, heldHost, heldGuest, kinds, digests⟩ := settleBoth_adopt settles
  by_cases large : host.oversize = true ∨ guest.oversize = true
  · exact told path host guest reached unresolved heldHost heldGuest kinds large hostChanged guestChanged digests
  rw [Inputs.hostMoved, heldHost] at hostChanged
  rw [Inputs.guestMoved, heldGuest] at guestChanged
  rw [not_or] at large
  exact same_of_digests faithful (hostTree path host heldHost) (guestTree path guest heldGuest) hostChanged
    guestChanged kinds digests large.1 large.2

def largeOnBoth (resolved : SortedMap Path Winner) : Inputs where
  host := SortedMap.empty.insert ['f'] ⟨.file, 5, 1, none, none, true⟩
  guest := SortedMap.empty.insert ['f'] ⟨.file, 5, 2, none, none, true⟩
  ledger := ⟨.empty⟩
  undecided := []
  guestOwned := []
  resolved
  maxFileBytes := 4
  caseFolding := false

def fileOf (content : List Char) : Path → Object (List Char) := fun _ => .file content

theorem describes_large {resolved : SortedMap Path Winner} (content : List Char) (mtimeNs : Int) :
    Describes ('#' :: ·) (largeOnBoth resolved)
      (SortedMap.empty.insert ['f'] ⟨.file, 5, mtimeNs, none, none, true⟩) (fileOf content) := by
  intro path state held
  rw [SortedMap.get?_insert] at held
  split at held
  · cases held
    exact ⟨rfl, fun _ hashed => (nomatch hashed), fun _ => .inr (.inl rfl), fun _ => ⟨rfl, Nat.lt_succ_self 4⟩,
      fun _ _ => rfl⟩
  · cases held

theorem answered_large_adoptsSame :
    AdoptsSame id (largeOnBoth (SortedMap.empty.insert ['f'] .host)) (fileOf (.replicate 5 'a')) (fileOf (.replicate 5 'b')) := by
  refine (@adoptsSame_iff_toldApart (List Char) ('#' :: ·) ?_ id _ _ _ (describes_large _ 1)
    (describes_large _ 2)).mpr ?_
  · exact fun left right same => (List.cons.inj same).2
  intro path host guest _ unresolved held
  change (SortedMap.empty.insert ['f'] _).get? path = _ at held
  change (SortedMap.empty.insert ['f'] _).get? path = _ at unresolved
  rw [SortedMap.get?_insert] at held unresolved
  split at held
  · next here =>
    rw [if_pos here] at unresolved
    cases unresolved
  · cases held

/-- Two new files above the cap are adopted as agreed, whatever they hold. -/
theorem unanswered_large_not_adoptsSame :
    ¬ AdoptsSame id (largeOnBoth .empty) (fileOf (.replicate 5 'a')) (fileOf (.replicate 5 'b')) := by
  intro adopts
  have adopted : ⟨.file, [], ⟨5, 1⟩, ⟨5, 2⟩⟩ ∈ ((reconcile id (largeOnBoth .empty)).at ['f']).adopt := by
    decide +kernel
  exact absurd (adopts.same _ _ adopted) (by decide)

end Vmlab.Workspace
