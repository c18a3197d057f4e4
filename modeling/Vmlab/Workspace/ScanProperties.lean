import Vmlab.Workspace.PlanProperties
import Vmlab.Workspace.Scan

/-!
# What a stat-walk leaves undecided

A listing that fails is recorded as a skip of the directory's own path. Nothing below the directory is recorded,
so what the ledger or the host holds there reads as absent from the guest.
-/

namespace Vmlab.Workspace

open Library (SortedMap)
open List
open Decision (removal creation adopted)

variable {dir path : Path} {α : Type} {gathered final : Gathered}

/-- Strictly below a directory; below the root is every path. -/
def Below (dir path : Path) : Prop := dir = [] ∨ ∃ rest, path = dir ++ '/' :: rest

section

variable (workspace : PassWorkspace) (guest : GuestView) (ignores : Ignores)

def Child (dir child : Path) : Prop :=
  ∃ entries entry, guest.readdir (joinGuest workspace.guestRoot dir) = .ok entries ∧ entry ∈ entries ∧
    entry.attrs.kind = .dir ∧ ignores.guestOwned (joinRel dir entry.name) true = false ∧
    child = joinRel dir entry.name

def Listed (dir : Path) : Prop := Relation.ReflTransGen (Child workspace guest ignores) [] dir

/-- A directory that the walk, which starts only where there is a root, lists and cannot read. -/
def ListingFails (dir : Path) : Prop :=
  (∃ attrs, guest.lstat workspace.guestRoot = .ok (some attrs)) ∧ Listed workspace guest ignores dir ∧
    ∃ fault, guest.readdir (joinGuest workspace.guestRoot dir) = .error fault

def Reported (path : Path) : Prop :=
  ∃ dir entries entry, Listed workspace guest ignores dir ∧
    guest.readdir (joinGuest workspace.guestRoot dir) = .ok entries ∧ entry ∈ entries ∧ path = joinRel dir entry.name

def PlainNames : Prop := ∀ dir entries, guest.readdir dir = .ok entries → ∀ entry ∈ entries, '/' ∉ entry.name

variable {workspace guest ignores}

theorem below_joinRel {failed name rest : Path} (plain : '/' ∉ name)
    (same : joinRel dir name = failed ++ '/' :: rest) : dir = failed ∨ ∃ rest, dir = failed ++ '/' :: rest := by
  simp only [joinRel] at same
  split at same
  · rw [same] at plain
    simp at plain
  rcases append_eq_append_iff.mp same with ⟨middle, front, back⟩ | ⟨middle, front, back⟩
  · cases middle with
    | nil => exact .inl (by simpa using front.symm)
    | cons head middle =>
      obtain ⟨rfl, inside⟩ := cons_eq_cons.mp back
      rw [inside] at plain
      simp at plain
  cases middle with
  | nil => exact .inl (by simpa using front)
  | cons head middle =>
    obtain ⟨rfl, _⟩ := cons_eq_cons.mp back
    exact .inr ⟨middle, front⟩

theorem not_below_of_reported (plain : PlainNames guest) {failed : Path}
    (fails : ListingFails workspace guest ignores failed) (reported : Reported workspace guest ignores path) :
    ¬ Below failed path := by
  obtain ⟨_, _, fault, unreadable⟩ := fails
  obtain ⟨dir, entries, entry, listed, readable, member, rfl⟩ := reported
  induction listed generalizing entries entry with
  | refl =>
    rintro (rfl | ⟨rest, same⟩)
    · rw [unreadable] at readable
      cases readable
    have inside := plain _ _ readable entry member
    rw [joinRel, if_pos rfl] at same
    rw [same] at inside
    simp at inside
  | @tail parent dir _ child ih =>
    obtain ⟨siblings, self, parentReadable, selfMember, _, _, rfl⟩ := child
    rintro (rfl | ⟨rest, same⟩)
    · exact ih siblings self parentReadable selfMember (.inl rfl)
    rcases below_joinRel (plain _ _ readable entry member) same with same | ⟨rest, same⟩
    · rw [same, unreadable] at readable
      cases readable
    · exact ih siblings self parentReadable selfMember (.inr ⟨rest, same⟩)

variable (workspace guest ignores)

structure Sound (gathered : Gathered) : Prop where
  tree : ∀ path state, gathered.probe.tree.get? path = some state → Reported workspace guest ignores path
  suspects : ∀ suspect ∈ gathered.suspects, Reported workspace guest ignores suspect.1
  level : ∀ dir ∈ gathered.level, Listed workspace guest ignores dir

structure Grows (before after : Gathered) : Prop where
  skipped : ∀ skip ∈ before.probe.skipped, skip ∈ after.probe.skipped
  level : ∀ dir ∈ before.level, dir ∈ after.level

variable {workspace guest ignores}

theorem Grows.refl (gathered : Gathered) : Grows gathered gathered := ⟨fun _ => id, fun _ => id⟩

theorem Grows.trans {first second third : Gathered} (front : Grows first second) (back : Grows second third) :
    Grows first third :=
  ⟨fun skip member => back.skipped skip (front.skipped skip member),
    fun dir member => back.level dir (front.level dir member)⟩

theorem grows_skip (gathered : Gathered) (skip : Skip) : Grows gathered (gathered.skip skip) :=
  ⟨fun other member => by simp [Gathered.skip, member], fun dir member => member⟩

theorem grows_see (gathered : Gathered) (seen : Seen) : Grows gathered (gathered.see seen) := by
  simp only [Gathered.see]
  split <;> exact ⟨fun _ => id, fun _ => id⟩

variable {step : Gathered → α → Gathered}

theorem grows_foldl (grows : ∀ gathered item, Grows gathered (step gathered item))
    (items : List α) (gathered : Gathered) : Grows gathered (items.foldl step gathered) := by
  induction items generalizing gathered with
  | nil => exact .refl gathered
  | cons item rest ih => exact (grows gathered item).trans (ih _)

variable {ledger : Ledger}

theorem classify_rel {rel : Path} {attrs : Attrs} {cap : Nat} {seen : Seen}
    (classified : classify rel attrs ledger cap = .ok seen) : seen.rel = rel := by
  simp only [classify] at classified
  split at classified
  · cases classified
  · cases classified
    rfl

theorem visitEntry_grows (dir : Path) (gathered : Gathered) (entry : DirEntry) :
    Grows gathered (visitEntry workspace ignores ledger dir gathered entry) := by
  simp only [visitEntry]
  split
  · split <;> exact ⟨fun _ => id, fun _ => id⟩
  split
  · refine Grows.trans ?_ (grows_see _ _)
    split
    · exact ⟨fun _ => id, fun other member => mem_append_left _ member⟩
    · exact .refl _
  · exact grows_skip _ _

theorem visitDir_grows (gathered : Gathered) (dir : Path) :
    Grows gathered (visitDir workspace guest ignores ledger gathered dir) := by
  simp only [visitDir]
  split
  · exact grows_foldl (visitEntry_grows dir) _ _
  · exact grows_skip _ _

section

variable (sound : Sound workspace guest ignores gathered)
include sound

theorem Sound.see {seen : Seen}
    (reported : Reported workspace guest ignores seen.rel) : Sound workspace guest ignores (gathered.see seen) := by
  simp only [Gathered.see]
  split
  · refine ⟨sound.tree, fun suspect member => ?_, sound.level⟩
    rcases mem_append.mp member with before | new
    · exact sound.suspects suspect before
    · rw [mem_singleton.mp new]
      exact reported
  refine ⟨fun path state found => ?_, sound.suspects, sound.level⟩
  rw [SortedMap.get?_insert] at found
  split at found
  · next same => exact same ▸ reported
  · exact sound.tree path state found

theorem Sound.skip (skip : Skip) : Sound workspace guest ignores (gathered.skip skip) := { sound with }

theorem Sound.visitEntry (listed : Listed workspace guest ignores dir) {entries : List DirEntry}
    (readable : guest.readdir (joinGuest workspace.guestRoot dir) = .ok entries) {entry : DirEntry}
    (member : entry ∈ entries) :
    Sound workspace guest ignores (visitEntry workspace ignores ledger dir gathered entry) := by
  have reported : Reported workspace guest ignores (joinRel dir entry.name) :=
    ⟨dir, entries, entry, listed, readable, member, rfl⟩
  simp only [Workspace.visitEntry]
  split
  · split <;> exact { sound with }
  rename_i synced
  split
  · next seen classified =>
    have rel := classify_rel classified
    refine Sound.see ?_ (rel ▸ reported)
    split
    · next isDir =>
      refine ⟨sound.tree, sound.suspects, fun other inside => ?_⟩
      rcases mem_append.mp inside with before | new
      · exact sound.level other before
      rw [mem_singleton.mp new, rel]
      refine listed.tail ⟨entries, entry, readable, member, by simpa using isDir, ?_, rfl⟩
      simpa [isDir] using synced
    · exact sound
  · exact sound.skip _

theorem Sound.foldl {items : List α} (kept : ∀ gathered, Sound workspace guest ignores gathered → ∀ item ∈ items,
    Sound workspace guest ignores (step gathered item)) :
    Sound workspace guest ignores (items.foldl step gathered) := by
  induction items generalizing gathered with
  | nil => exact sound
  | cons item rest ih =>
    exact ih (kept gathered sound item mem_cons_self) fun gathered sound item member =>
      kept gathered sound item (mem_cons_of_mem _ member)

theorem Sound.visitDir (listed : Listed workspace guest ignores dir) :
    Sound workspace guest ignores (visitDir workspace guest ignores ledger gathered dir) := by
  simp only [Workspace.visitDir]
  split
  · next readable => exact sound.foldl fun gathered sound entry member => sound.visitEntry listed readable member
  · exact sound.skip _

theorem Sound.walkLevels {depth : Nat}
    (walked : walkLevels workspace guest ignores ledger depth gathered = some final) :
    Sound workspace guest ignores final := by
  induction depth generalizing gathered with
  | zero =>
    simp only [Workspace.walkLevels] at walked
    split at walked <;> cases walked
    exact sound
  | succ depth ih =>
    simp only [Workspace.walkLevels] at walked
    split at walked
    · cases walked
      exact sound
    have cleared : Sound workspace guest ignores { gathered with level := [] } :=
      ⟨sound.tree, sound.suspects, fun dir member => absurd member not_mem_nil⟩
    exact ih (cleared.foldl fun gathered kept dir member => kept.visitDir (sound.level dir member)) walked

end

theorem foldl_brings (holds : Gathered → Prop) (grows : ∀ gathered item, Grows gathered (step gathered item))
    (stays : ∀ before after, Grows before after → holds before → holds after) {items : List α} {item : α}
    (member : item ∈ items) (brings : ∀ gathered, holds (step gathered item)) (gathered : Gathered) :
    holds (items.foldl step gathered) := by
  induction items generalizing gathered with
  | nil => cases member
  | cons head rest ih =>
    rcases mem_cons.mp member with rfl | later
    · exact stays _ _ (grows_foldl grows rest _) (brings gathered)
    · exact ih later _

theorem visitDir_fails {fault : Fault} (fails : guest.readdir (joinGuest workspace.guestRoot dir) = .error fault) :
    ∃ skip ∈ (visitDir workspace guest ignores ledger gathered dir).probe.skipped,
      skip.path = if dir = [] then ['.'] else dir := by
  simp [visitDir, fails, Gathered.skip]

theorem visitDir_child {child : Path} (listed : Child workspace guest ignores dir child) :
    child ∈ (visitDir workspace guest ignores ledger gathered dir).level := by
  obtain ⟨entries, entry, readable, member, isDir, synced, rfl⟩ := listed
  simp only [visitDir, readable]
  refine foldl_brings (fun gathered => joinRel dir entry.name ∈ gathered.level) (visitEntry_grows dir)
    (fun before after grown inside => grown.level _ inside) member (fun gathered => ?_) gathered
  simp only [visitEntry, isDir, beq_self_eq_true, synced, Bool.false_eq_true, if_false, classify, Kind.of, if_true]
  exact (grows_see _ _).level _ (by simp)

section

variable {depth : Nat} (walked : walkLevels workspace guest ignores ledger depth gathered = some final)
include walked

theorem walkLevels_grows : ∀ skip ∈ gathered.probe.skipped, skip ∈ final.probe.skipped := by
  induction depth generalizing gathered with
  | zero =>
    simp only [Workspace.walkLevels] at walked
    split at walked <;> cases walked
    exact fun _ => id
  | succ depth ih =>
    simp only [Workspace.walkLevels] at walked
    split at walked
    · cases walked
      exact fun _ => id
    · exact fun skip member => ih walked skip ((grows_foldl visitDir_grows _ _).skipped skip member)

theorem walkLevels_skips {start : Path}
    (inside : start ∈ gathered.level) (reaches : Relation.ReflTransGen (Child workspace guest ignores) start dir)
    {fault : Fault} (fails : guest.readdir (joinGuest workspace.guestRoot dir) = .error fault) :
    ∃ skip ∈ final.probe.skipped, skip.path = if dir = [] then ['.'] else dir := by
  induction depth generalizing gathered start with
  | zero =>
    simp only [walkLevels] at walked
    split at walked
    · next empty => simp [List.isEmpty_iff.mp empty] at inside
    · cases walked
  | succ depth ih =>
    simp only [walkLevels] at walked
    split at walked
    · next empty => simp [List.isEmpty_iff.mp empty] at inside
    rcases reaches.cases_head with rfl | ⟨child, listed, reaches⟩
    · obtain ⟨skip, member, same⟩ := foldl_brings
        (fun gathered => ∃ skip ∈ gathered.probe.skipped, skip.path = if start = [] then ['.'] else start)
        visitDir_grows (fun before after grown found => found.imp fun skip found =>
          ⟨grown.skipped skip found.1, found.2⟩) inside (fun _ => visitDir_fails fails)
        { gathered with level := [] }
      exact ⟨skip, walkLevels_grows walked skip member, same⟩
    · exact ih walked (foldl_brings (fun gathered => child ∈ gathered.level) visitDir_grows
        (fun before after grown member => grown.level _ member) inside (fun _ => visitDir_child listed) _) reaches

end

theorem resolveSuspects_spec (suspects : List (Path × State)) (probe : GuestProbe) :
    (∀ path state, (resolveSuspects workspace guest suspects probe).tree.get? path = some state →
      (∃ state, probe.tree.get? path = some state) ∨ ∃ suspect ∈ suspects, suspect.1 = path) ∧
      ∀ skip ∈ probe.skipped, skip ∈ (resolveSuspects workspace guest suspects probe).skipped := by
  induction suspects generalizing probe with
  | nil => exact ⟨fun path state found => .inl ⟨state, found⟩, fun _ => id⟩
  | cons suspect rest ih =>
    obtain ⟨trees, skips⟩ := ih (resolveSuspect workspace guest probe suspect)
    have one : (∀ path state, (resolveSuspect workspace guest probe suspect).tree.get? path = some state →
        (∃ state, probe.tree.get? path = some state) ∨ suspect.1 = path) ∧
        ∀ skip ∈ probe.skipped, skip ∈ (resolveSuspect workspace guest probe suspect).skipped := by
      simp only [resolveSuspect]
      split
      · refine ⟨fun path state found => ?_, fun _ => id⟩
        rw [SortedMap.get?_insert] at found
        split at found
        · next same => exact .inr same.symm
        · exact .inl ⟨state, found⟩
      · exact ⟨fun path state found => .inl ⟨state, found⟩, fun skip member => mem_append_left _ member⟩
    refine ⟨fun path state found => ?_, fun skip member => skips skip (one.2 skip member)⟩
    rcases trees path state found with ⟨state, before⟩ | ⟨later, member, same⟩
    · rcases one.1 path state before with before | same
      · exact .inl before
      · exact .inr ⟨suspect, mem_cons_self, same⟩
    · exact .inr ⟨later, mem_cons_of_mem _ member, same⟩

theorem guestWalk_spec {depth : Nat} {hadAgreement : Bool} {probe : GuestProbe}
    (walked : guestWalk workspace guest ignores ledger depth hadAgreement = some (.ok probe)) :
    (∀ path state, probe.tree.get? path = some state → Reported workspace guest ignores path) ∧
      ∀ dir, ListingFails workspace guest ignores dir →
        (if dir = [] then ['.'] else dir) ∈ probe.skipped.map Skip.path := by
  simp only [guestWalk] at walked
  split at walked
  · cases walked
  · next absent =>
    split at walked <;> cases walked
    refine ⟨fun path state found => ?_, fun dir fails => ?_⟩
    · simp [Gathered.start, SortedMap.get?, SortedMap.empty] at found
    obtain ⟨⟨attrs, present⟩, _⟩ := fails
    rw [absent] at present
    cases present
  obtain ⟨final, levels, same⟩ := Option.map_eq_some_iff.mp walked
  cases same
  have sound : Sound workspace guest ignores final := by
    refine Sound.walkLevels ⟨?_, ?_, ?_⟩ levels
    · intro path state found
      simp [Gathered.start, SortedMap.get?, SortedMap.empty] at found
    · intro suspect member
      cases member
    intro dir member
    rw [mem_singleton.mp member]
    exact .refl
  refine ⟨fun path state found => ?_, fun dir fails => ?_⟩
  · rcases (resolveSuspects_spec _ _).1 path state found with ⟨state, before⟩ | ⟨suspect, member, rfl⟩
    · exact sound.tree path state before
    · exact sound.suspects suspect member
  obtain ⟨_, listed, fault, fails⟩ := fails
  obtain ⟨skip, member, same⟩ := walkLevels_skips levels mem_cons_self listed fails
  exact mem_map.mpr ⟨skip, (resolveSuspects_spec _ _).2 skip member, same⟩

end

section

variable (toLowercase : Path → Path) (inputs : Inputs)

/-- A plan neither acts at a path, nor adopts it, nor forgets it. -/
def Untouched (plan : Plan) (path : Path) : Prop :=
  (plan.at path).actions = [] ∧ (plan.at path).adopt = [] ∧ (plan.at path).forget = false

/-- What keeps a path alone although the guest reports nothing there. It is undecided on other grounds or one of
a collision; or the host holds it and either a developer's answer or the size guard keeps it from being carried,
or the host's own change makes it a conflict, or the mass guard withholds the removal. -/
def LeftAlone (path : Path) : Prop :=
  path ∈ inputs.undecided ∨ path ∈ colliding toLowercase inputs ∨
    (path ∉ inputs.guestOwned ∧ ∃ held, inputs.host.get? path = some held ∧
      match inputs.ledger.entries.get? path, inputs.resolved.get? path with
      | none, some .guest => True
      | some _, some .guest => False
      | some was, none => (moved (some held) (some was)).changed ∨ guardFires toLowercase inputs
      | _, _ => held.kind = .file ∧ inputs.maxFileBytes < held.size)

variable {toLowercase inputs}

theorem untouched_of_leave (leaves : decision toLowercase inputs path = .leave) :
    Untouched (reconcile toLowercase inputs) path := by
  simp [Untouched, reconcile_at, leaves, removal, creation, adopted, Decision.forgets]

theorem untouched_of_carry {held : State} {was : Option Agreed}
    (carried : decision toLowercase inputs path = carry inputs path .toGuest (some held) none was) :
    Untouched (reconcile toLowercase inputs) path ↔ held.kind = .file ∧ inputs.maxFileBytes < held.size := by
  simp only [Untouched, reconcile_at, carried, carry, place]
  cases kind : held.kind with
  | file =>
    by_cases large : inputs.maxFileBytes < held.size <;>
      simp [large, removal, creation, adopted, Decision.forgets]
  | dir => simp [creation]
  | symlink => simp [creation]

theorem untouched_of_removal {held : State} {was : Agreed}
    (carried : decision toLowercase inputs path = carry inputs path .toHost none (some held) (some was)) :
    Untouched (reconcile toLowercase inputs) path ↔
      guardFires toLowercase inputs ∧ inputs.resolved.get? path ≠ some .guest := by
  have removes : (decision toLowercase inputs path).removal = some (.remove .toHost path was.kind) := by
    rw [carried]
    rfl
  have back : heldBack toLowercase inputs (.remove .toHost path was.kind) = true ↔
      guardFires toLowercase inputs ∧ inputs.resolved.get? path ≠ some .guest := by
    simp [heldBack, Action.removesFromHost, Action.path]
  rw [← back]
  simp only [Untouched, reconcile_at, removes, Option.toList_some, filter_cons, filter_nil]
  simp only [carried, carry, creation, adopted, Decision.forgets]
  cases heldBack toLowercase inputs (.remove .toHost path was.kind) <;> simp

theorem untouched_iff_leftAlone (known : path ∈ inputs.paths) (absent : inputs.guest.get? path = none) :
    Untouched (reconcile toLowercase inputs) path ↔ LeftAlone toLowercase inputs path := by
  by_cases undecided : path ∈ inputs.undecided
  · simp [LeftAlone, undecided, untouched_of_leave, decision, known, decidePath]
  by_cases collides : path ∈ colliding toLowercase inputs
  · simp [LeftAlone, collides, untouched_of_leave, decision, known, decidePath]
  simp only [LeftAlone, undecided, collides, false_or]
  by_cases owned : path ∈ inputs.guestOwned
  · have forgets : decision toLowercase inputs path = .forget := by
      simp [decision, known, decidePath, undecided, collides, owned]
    simp [Untouched, reconcile_at, forgets, Decision.forgets, owned]
  cases hosted : inputs.host.get? path with
  | none =>
    have agreed : (inputs.ledger.entries.get? path).isSome := by
      simpa [mem_paths, hosted, absent] using known
    have forgets : decision toLowercase inputs path = .forget := by
      simp [decision, known, decidePath, undecided, collides, owned, hosted, absent, agreed]
    simp [Untouched, reconcile_at, forgets, Decision.forgets]
  | some held =>
    have reached : Open toLowercase inputs path := ⟨undecided, collides, owned, .inl (by simp [hosted])⟩
    simp only [owned, not_false_eq_true, true_and, Option.some.injEq, exists_eq_left']
    cases agreed : inputs.ledger.entries.get? path with
    | none =>
      have host : (inputs.hostMoved path).changed := by simp [Inputs.hostMoved, hosted, agreed, moved, Moved.changed]
      have guest : (inputs.guestMoved path).changed = false := by
        simp [Inputs.guestMoved, absent, agreed, moved, Moved.changed]
      rcases chosen : inputs.resolved.get? path with _ | _ | _
      · have carried := reached.decision_host chosen host guest
        rw [hosted, absent, agreed] at carried
        exact untouched_of_carry carried
      · have carried := reached.decision_resolved chosen (.inl host)
        simp only [Winner.direction, Inputs.moving, Inputs.standing, Direction.sourceIsHost, if_true, hosted,
          absent, agreed] at carried
        exact untouched_of_carry carried
      have carried := reached.decision_resolved chosen (.inl host)
      simp only [Winner.direction, Inputs.moving, Direction.sourceIsHost, Bool.false_eq_true, if_false, absent,
        agreed, carry, Option.map_none] at carried
      simp [Untouched, reconcile_at, carried, removal, creation, adopted,
        Decision.forgets]
    | some was =>
      have guest : (inputs.guestMoved path).changed := by
        simp [Inputs.guestMoved, absent, agreed, moved, Moved.changed]
      rcases chosen : inputs.resolved.get? path with _ | _ | _
      · cases changed : (moved (some held) (some was)).changed with
        | true =>
          have settled := reached.decision_both chosen (by simpa [Inputs.hostMoved, hosted, agreed]) guest
          simp [Untouched, reconcile_at, settled, absent, settleBoth, removal, creation,
            adopted, Decision.forgets, changed]
        | false =>
          have carried := reached.decision_guest chosen (by simpa [Inputs.hostMoved, hosted, agreed]) guest
          rw [hosted, absent, agreed] at carried
          rw [untouched_of_removal carried]
          simp [chosen, changed]
      · have carried := reached.decision_resolved chosen (.inr guest)
        simp only [Winner.direction, Inputs.moving, Inputs.standing, Direction.sourceIsHost, if_true, hosted,
          absent, agreed] at carried
        exact untouched_of_carry carried
      have carried := reached.decision_resolved chosen (.inr guest)
      simp only [Winner.direction, Inputs.moving, Inputs.standing, Direction.sourceIsHost, Bool.false_eq_true,
        if_false, hosted, absent, agreed] at carried
      rw [untouched_of_removal carried]
      simp [chosen]

end

section

variable (toLowercase : Path → Path) (workspace : PassWorkspace) (guest : GuestView) (ignores : Ignores) (depth : Nat)
  (scan : HostScan) (pending : Pending) (ledger : Ledger) (caseFolding : Bool)

/-- A pass that walks the guest leaves alone everything at or below the directories that it could not list exactly
when each path of the host or of the ledger below one of them is left alone on other grounds. The directories
themselves always are. -/
theorem walk_leaves_unreadable_alone (plain : PlainNames guest) (walks : pending.rescan = true)
    (rooted : refuseVanishedRoot workspace guest ledger = .ok ()) (probe : GuestProbe)
    (observed : observeGuest workspace guest ignores depth scan pending ledger = some (.ok probe)) :
    planPass workspace guest ignores toLowercase depth scan pending ledger caseFolding =
        some (.ok (reconcile toLowercase (passInputs workspace guest ignores scan probe pending ledger caseFolding))) ∧
      ((∀ dir, ListingFails workspace guest ignores dir → ∀ path, path = dir ∨ Below dir path →
          Untouched (reconcile toLowercase
            (passInputs workspace guest ignores scan probe pending ledger caseFolding)) path) ↔
        ∀ dir, ListingFails workspace guest ignores dir →
          ∀ path ∈ (passInputs workspace guest ignores scan probe pending ledger caseFolding).paths, Below dir path →
            LeftAlone toLowercase (passInputs workspace guest ignores scan probe pending ledger caseFolding) path) := by
  refine ⟨by simp [planPass, rooted, observed, Except.map], ?_⟩
  simp only [observeGuest, walks, if_true] at observed
  obtain ⟨reports, skips⟩ := guestWalk_spec observed
  generalize made : passInputs workspace guest ignores scan probe pending ledger caseFolding = inputs
  have absent : ∀ dir, ListingFails workspace guest ignores dir → ∀ path, Below dir path →
      inputs.guest.get? path = none := by
    intro dir fails path below
    by_contra found
    obtain ⟨state, found⟩ := Option.ne_none_iff_exists'.mp found
    rw [← made, passInputs, SortedMap.get?_eq_some, SortedMap.mem_filter, ← SortedMap.get?_eq_some] at found
    exact not_below_of_reported plain fails (reports path state found.1) below
  constructor
  · intro untouched dir fails path known below
    exact (untouched_iff_leftAlone known (absent dir fails path below)).mp (untouched dir fails path (.inr below))
  intro alone dir fails path inside
  by_cases known : path ∈ inputs.paths
  · by_cases below : Below dir path
    · exact (untouched_iff_leftAlone known (absent dir fails path below)).mpr (alone dir fails path known below)
    obtain rfl : path = dir := inside.resolve_right below
    have skipped := skips path fails
    rw [if_neg fun root => below (.inl root)] at skipped
    have undecided : path ∈ inputs.undecided := by
      rw [← made, passInputs, map_append]
      exact mem_append_left _ (mem_append_right _ (mem_append_right _ skipped))
    exact untouched_of_leave (by simp [decision, known, decidePath, undecided])
  · exact untouched_of_leave (by simp [decision, known])

end

def unreadableGuest : GuestView where
  lstat _ := .ok (some ⟨.dir, 0, 0⟩)
  readdir path := if path = ['/', 'w'] then .ok [⟨['d'], ⟨.dir, 0, 0⟩⟩] else .error "permission denied"
  readlink _ := .error "not a link"
  digest _ := .error "permission denied"

def plainWorkspace : PassWorkspace := ⟨['/', 'w'], 8, id⟩

def walkPending : Pending := ⟨[], [], [], true, [], .empty⟩

/-- A directory that both sides agree on, with a file in it or without. -/
def agreedDir (withFile : Bool) : Ledger :=
  ⟨(if withFile then SortedMap.empty.insert ['d', '/', 'x'] ⟨.file, ['c'], ⟨1, 0⟩, ⟨1, 0⟩⟩ else .empty).insert ['d']
    ⟨.dir, [], ⟨0, 0⟩, ⟨0, 0⟩⟩⟩

def agreedHost (withFile : Bool) : HostScan :=
  ⟨(if withFile then SortedMap.empty.insert ['d', '/', 'x'] ⟨.file, 1, 0, some ['c'], none, false⟩ else .empty).insert
    ['d'] ⟨.dir, 0, 0, none, none, false⟩, [], []⟩

theorem unreadableGuest_plainNames : PlainNames unreadableGuest := by
  intro dir entries readable entry member
  simp only [unreadableGuest] at readable
  split at readable <;> cases readable
  rw [mem_singleton.mp member]
  decide

/-- With nothing agreed below the directory, the walk leaves it alone. -/
theorem walk_leaves_bare_directory_alone :
    ∃ probe, observeGuest plainWorkspace unreadableGuest ⟨fun _ _ => false⟩ 3 (agreedHost false) walkPending
        (agreedDir false) = some (.ok probe) ∧
      ∀ dir, ListingFails plainWorkspace unreadableGuest ⟨fun _ _ => false⟩ dir → ∀ path, path = dir ∨ Below dir path →
        Untouched (reconcile id (passInputs plainWorkspace unreadableGuest ⟨fun _ _ => false⟩ (agreedHost false) probe
          walkPending (agreedDir false) false)) path := by
  refine ⟨_, rfl, (walk_leaves_unreadable_alone id plainWorkspace unreadableGuest ⟨fun _ _ => false⟩ 3
    (agreedHost false) walkPending (agreedDir false) false unreadableGuest_plainNames rfl rfl _ rfl).2.mpr ?_⟩
  rintro dir ⟨_, _, fault, fails⟩ path known below
  have only : path = ['d'] := mem_singleton.mp known
  subst only
  rcases below with rfl | ⟨rest, same⟩
  · cases fails
  have inside : '/' ∈ ['d'] := by
    rw [same]
    simp
  simp at inside

/-- A file below a directory that the guest cannot list is removed from the host. -/
theorem unreadable_directory_deletes_file :
    unreadableGuest.readdir (joinGuest plainWorkspace.guestRoot ['d']) = .error "permission denied" ∧
      (planPass plainWorkspace unreadableGuest ⟨fun _ _ => false⟩ id 3 (agreedHost true) walkPending (agreedDir true)
        false).map (Except.map Plan.actions) = some (.ok [.remove .toHost ['d', '/', 'x'] .file]) :=
  ⟨rfl, by decide +kernel⟩

end Vmlab.Workspace
