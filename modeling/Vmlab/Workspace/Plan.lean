import Vmlab.Library.SortedMap

/-!
# Reconciliation as a value

Host state, guest state and the ledger of what they last agreed on go in; what to do about each path comes out. The
ledger's other fields and the plan's warning about an unusual volume of work are left out: nothing here reads them.
-/

namespace Vmlab.Workspace

open Library (SortedMap)

/-- A path relative to the workspace root, `/`-separated, as its characters. -/
abbrev Path := List Char

abbrev Digest := List Char

inductive Kind where
  | file
  | dir
  | symlink
  deriving DecidableEq

structure Side where
  size : Nat
  mtimeNs : Int
  deriving DecidableEq

def Side.unchanged (side : Side) (size : Nat) (mtimeNs : Int) : Bool := side.size == size && side.mtimeNs == mtimeNs

structure Agreed where
  kind : Kind
  digest : Digest
  host : Side
  guest : Side
  deriving DecidableEq

structure Ledger where
  entries : SortedMap Path Agreed

/-- What one side holds at one path. The digest is there only when it was computed. -/
structure State where
  kind : Kind
  size : Nat
  mtimeNs : Int
  digest : Option Digest
  target : Option (List Char)
  oversize : Bool

def State.side (state : State) : Side := ⟨state.size, state.mtimeNs⟩

abbrev Tree := SortedMap Path State

inductive Direction where
  | toGuest
  | toHost
  deriving DecidableEq

def Direction.sourceIsHost : Direction → Bool
  | .toGuest => true
  | .toHost => false

/-- One thing to do to one side. The side an action carries is the moving side's own. -/
inductive Action where
  | makeDir (direction : Direction) (path : Path) (side : Side)
  | putFile (direction : Direction) (path : Path) (side : Side) (digest : Digest)
  | putSymlink (direction : Direction) (path : Path) (target : List Char) (side : Side) (digest : Digest)
      (dirLink : Bool)
  | remove (direction : Direction) (path : Path) (kind : Kind)
  deriving DecidableEq

def Action.path : Action → Path
  | .makeDir _ path _ => path
  | .putFile _ path _ _ => path
  | .putSymlink _ path _ _ _ _ => path
  | .remove _ path _ => path

def Action.direction : Action → Direction
  | .makeDir direction _ _ => direction
  | .putFile direction _ _ _ => direction
  | .putSymlink direction _ _ _ _ _ => direction
  | .remove direction _ _ => direction

inductive ConflictKind where
  | bothCreated
  | bothModified
  | modifiedAndDeleted
  | kindReplaced

structure Conflict where
  path : Path
  kind : ConflictKind

inductive Winner where
  | host
  | guest
  deriving DecidableEq

structure BulkDelete where
  paths : List Path
  agreed : Nat

def bulkDeleteFloor : Nat := 20

def BulkDelete.triggered (removals agreed : Nat) : Bool :=
  decide (bulkDeleteFloor < removals) && decide (agreed < 2 * removals)

structure Oversize where
  path : Path
  direction : Direction
  size : Nat
  cap : Nat
  deriving DecidableEq

structure Collision where
  folded : Path
  paths : List Path

structure Plan where
  actions : List Action
  expected : SortedMap Path (Option State)
  adopt : List (Path × Agreed)
  forget : List Path
  conflicts : List Conflict
  bulkDelete : Option BulkDelete
  oversize : List Oversize
  collisions : List Collision

structure Inputs where
  host : Tree
  guest : Tree
  ledger : Ledger
  undecided : List Path
  guestOwned : List Path
  resolved : SortedMap Path Winner
  maxFileBytes : Nat
  caseFolding : Bool

inductive Moved where
  | absent
  | created
  | unchanged
  | modified
  | deleted
  | replacedByOtherKind

def Moved.changed : Moved → Bool
  | .unchanged => false
  | .absent => false
  | _ => true

def digestOf (now : State) (was : Agreed) : Digest := now.digest.getD was.digest

def standaloneDigest (now : State) : Digest := now.digest.getD []

def digestOrAgreed (state : State) : Option Agreed → Digest
  | some was => digestOf state was
  | none => standaloneDigest state

def moved : Option State → Option Agreed → Moved
  | none, none => .absent
  | some _, none => .created
  | none, some _ => .deleted
  | some now, some was =>
    if now.kind ≠ was.kind then
      .replacedByOtherKind
    else if now.oversize then
      .modified
    else if digestOf now was = was.digest then
      .unchanged
    else
      .modified

inductive Settled where
  | adopt (agreed : Agreed)
  | conflict (kind : ConflictKind)

def settleBoth : Option State → Option State → Option Agreed → Settled
  | some host, some guest, was =>
    if host.kind ≠ guest.kind then
      .conflict .kindReplaced
    else if digestOrAgreed host was = digestOrAgreed guest was then
      .adopt ⟨host.kind, digestOrAgreed host was, host.side, guest.side⟩
    else
      .conflict (if was.isSome then .bothModified else .bothCreated)
  | _, _, _ => .conflict .modifiedAndDeleted

def dirLink (link : Path) (target : List Char) (host : Tree) : Bool :=
  let driveQualified := match target with
    | drive :: ':' :: _ => drive.isAlpha
    | _ => false
  if target.head? = some '/' || target.head? = some '\\' || driveQualified then
    false
  else
    let parts := (link.splitOn '/').dropLast
    let resolved := (target.splitOnP fun char => char == '/' || char == '\\').foldl
      (fun parts segment => parts.bind fun parts =>
        if segment = [] || segment = ['.'] then
          some parts
        else if segment = ['.', '.'] then
          if parts.isEmpty then none else some parts.dropLast
        else
          some (parts ++ [segment])) (some parts)
    match resolved with
    | none => false
    | some parts =>
      match host.get? (List.intercalate ['/'] parts) with
      | some state => state.kind == .dir
      | none => false

def place (direction : Direction) (path : Path) (state : State) (inputs : Inputs) (was : Option Agreed) :
    Except Oversize Action :=
  match state.kind with
  | .dir => .ok (.makeDir direction path state.side)
  | .file =>
    if inputs.maxFileBytes < state.size then
      .error ⟨path, direction, state.size, inputs.maxFileBytes⟩
    else
      .ok (.putFile direction path state.side (digestOrAgreed state was))
  | .symlink =>
    let target := state.target.getD []
    .ok (.putSymlink direction path target state.side (digestOrAgreed state was)
      (direction.sourceIsHost && dirLink path target inputs.host))

inductive Decision where
  | leave
  | forget
  | settle (settled : Settled)
  | carry (removal : Option Action) (placement : Option (Except Oversize Action))

def resolution (inputs : Inputs) (path : Path) (hostMoved guestMoved : Moved) : Option Winner :=
  (inputs.resolved.get? path).filter fun _ => hostMoved.changed || guestMoved.changed

def heading (winner : Option Winner) (hostMoved guestMoved : Moved) : Option Direction :=
  match winner with
  | some .host => some .toGuest
  | some .guest => some .toHost
  | none =>
    if hostMoved.changed then
      some .toGuest
    else if guestMoved.changed then
      some .toHost
    else
      none

def carry (inputs : Inputs) (path : Path) (direction : Direction) (moving standing : Option State)
    (was : Option Agreed) : Decision :=
  match moving with
  | none => .carry (was.map fun was => .remove direction path was.kind) none
  | some state =>
    let cleared := standing.bind fun standing =>
      if standing.kind ≠ state.kind then some (.remove direction path standing.kind) else none
    .carry cleared (some (place direction path state inputs was))

def decidePath (inputs : Inputs) (colliding : List Path) (path : Path) : Decision :=
  if path ∈ inputs.undecided ∨ path ∈ colliding then
    .leave
  else if path ∈ inputs.guestOwned then
    .forget
  else
    let host := inputs.host.get? path
    let guest := inputs.guest.get? path
    let was := inputs.ledger.entries.get? path
    let hostMoved := moved host was
    let guestMoved := moved guest was
    if host.isNone ∧ guest.isNone then
      if was.isSome then .forget else .leave
    else
      let winner := resolution inputs path hostMoved guestMoved
      if hostMoved.changed ∧ guestMoved.changed ∧ winner.isNone then
        .settle (settleBoth host guest was)
      else
        match heading winner hostMoved guestMoved with
        | some .toGuest => carry inputs path .toGuest host guest was
        | some .toHost => carry inputs path .toHost guest host was
        | none => .leave

structure Draft where
  removals : List Action
  creations : List Action
  adopt : List (Path × Agreed)
  forget : List Path
  conflicts : List Conflict
  oversize : List Oversize

def Draft.record (draft : Draft) (path : Path) : Decision → Draft
  | .leave => draft
  | .forget => { draft with forget := draft.forget ++ [path] }
  | .settle (.adopt agreed) => { draft with adopt := draft.adopt ++ [(path, agreed)] }
  | .settle (.conflict kind) => { draft with conflicts := draft.conflicts ++ [⟨path, kind⟩] }
  | .carry removal placement =>
    let draft := { draft with removals := draft.removals ++ removal.toList }
    match placement with
    | none => draft
    | some (.ok action) => { draft with creations := draft.creations ++ [action] }
    | some (.error refusal) => { draft with oversize := draft.oversize ++ [refusal] }

/-- Every path that one of the three knows about, in order. -/
def Inputs.paths (inputs : Inputs) : List Path :=
  (SortedMap.ofKeys (inputs.host.keys ++ inputs.guest.keys ++ inputs.ledger.entries.keys)).keys

def Action.removesFromHost : Action → Bool
  | .remove .toHost _ _ => true
  | _ => false

def withholdBulkDelete (removals : List Action) (inputs : Inputs) : List Action × Option BulkDelete :=
  let mass := (removals.filter Action.removesFromHost).length
  let agreed := inputs.ledger.entries.size
  if !BulkDelete.triggered mass agreed then
    (removals, none)
  else
    let kept (action : Action) : Bool :=
      !action.removesFromHost || inputs.resolved.get? action.path == some Winner.guest
    let paths := ((removals.filter fun action => !kept action).map Action.path).insertionSort (· ≤ ·)
    (removals.filter kept, if paths.isEmpty then none else some ⟨paths, agreed⟩)

def expectedState (inputs : Inputs) (action : Action) : Option State :=
  let tree := if action.direction.sourceIsHost then inputs.guest else inputs.host
  (tree.get? action.path).map fun state =>
    if state.digest.isNone && !state.oversize then
      match inputs.ledger.entries.get? action.path with
      | some agreed => { state with digest := some agreed.digest }
      | none => state
    else
      state

def captureExpected (inputs : Inputs) (actions : List Action) : SortedMap Path (Option State) :=
  actions.foldl (fun expected action => expected.insert action.path (expectedState inputs action)) .empty

section

variable (toLowercase : Path → Path)

def collisions (inputs : Inputs) : List Collision :=
  if !inputs.caseFolding then
    []
  else
    let folded := (SortedMap.ofKeys (inputs.host.keys.map toLowercase)).keys.map fun folded =>
      (⟨folded, inputs.host.keys.filter fun path => toLowercase path = folded⟩ : Collision)
    folded.filter fun collision => 1 < collision.paths.length

def colliding (inputs : Inputs) : List Path := (collisions toLowercase inputs).flatMap Collision.paths

def draft (inputs : Inputs) : Draft :=
  let colliding := colliding toLowercase inputs
  inputs.paths.foldl (fun (draft : Draft) path => draft.record path (decidePath inputs colliding path))
    ⟨[], [], [], [], [], []⟩

def reconcile (inputs : Inputs) : Plan :=
  let draft := draft toLowercase inputs
  let removals := draft.removals.insertionSort fun left right => right.path ≤ left.path
  let creations := draft.creations.insertionSort fun left right => left.path ≤ right.path
  let (removals, bulkDelete) := withholdBulkDelete removals inputs
  let actions := removals ++ creations
  { actions
    expected := captureExpected inputs actions
    adopt := draft.adopt
    forget := draft.forget
    conflicts := draft.conflicts
    bulkDelete
    oversize := draft.oversize
    collisions := collisions toLowercase inputs }

end

def needsDigest (agreed : Option Agreed) (kind : Kind) (side : Side) (hostSide : Bool) : Bool :=
  if kind = .dir then
    false
  else
    match agreed with
    | none => true
    | some agreed =>
      let recorded := if hostSide then agreed.host else agreed.guest
      agreed.kind != kind || !recorded.unchanged side.size side.mtimeNs

end Vmlab.Workspace
