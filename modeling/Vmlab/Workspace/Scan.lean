import Vmlab.Workspace.Plan

/-!
# What each side is holding

The two scans of the guest: `probeGuest` asks about paths that are already named, and `guestWalk` is the
stat-walk that lists the guest's whole tree, a level of directories at a time. The host's own scan is an input.
-/

namespace Vmlab.Workspace

open Library (SortedMap)

abbrev Fault := String

inductive EntryKind where
  | file
  | dir
  | symlink
  | other
  deriving DecidableEq

def Kind.of : EntryKind → Option Kind
  | .file => some .file
  | .dir => some .dir
  | .symlink => some .symlink
  | .other => none

structure Attrs where
  kind : EntryKind
  size : Nat
  mtimeNs : Int

structure DirEntry where
  name : List Char
  attrs : Attrs

/-- The calls that read the guest's tree, by the guest's own path, and what they answer. -/
structure GuestView where
  lstat : Path → Except Fault (Option Attrs)
  readdir : Path → Except Fault (List DirEntry)
  readlink : Path → Except Fault (List Char)
  digest : Path → Except Fault Digest

structure Skip where
  path : Path
  why : String

structure HostScan where
  tree : Tree
  skipped : List Skip
  locks : List Path

structure GuestProbe where
  tree : Tree
  skipped : List Skip
  locks : List Path

/-- The ignore rules: whether a path, as a directory or not, is the guest's own. -/
structure Ignores where
  guestOwned : Path → Bool → Bool

/-- What a pass knows besides the two trees: where the guest's copy is, the size guard's cap, and the digest of a
link's target. -/
structure PassWorkspace where
  guestRoot : Path
  maxFileBytes : Nat
  digestOfTarget : List Char → Digest

def joinRel (dir name : Path) : Path := if dir = [] then name else dir ++ '/' :: name

def joinGuest (root rel : Path) : Path :=
  if rel = [] then
    root
  else
    (root.reverse.dropWhile fun char => char == '/' || char == '\\').reverse ++ '/' :: rel

def utf8Len (text : List Char) : Nat := (text.map Char.utf8Size).sum

def dotGit : Path := ['.', 'g', 'i', 't', '/']

def isLock (rel : Path) : Bool := dotGit.isPrefixOf rel && ['.', 'l', 'o', 'c', 'k'].isSuffixOf rel

def mutableFiles : List Path :=
  ["index", "HEAD", "ORIG_HEAD", "FETCH_HEAD", "packed-refs", "config"].map String.toList

def mutableDirs : List Path := ["refs", "logs"].map String.toList

def isMutable (rel : Path) : Bool :=
  dotGit.isPrefixOf rel &&
    (let rest := rel.drop dotGit.length
     mutableFiles.contains rest || mutableDirs.any fun dir => rest == dir || (dir ++ ['/']).isPrefixOf rest)

def deferred (locks paths : List Path) : List Path := if locks.isEmpty then [] else paths.filter isMutable

structure Seen where
  rel : Path
  state : State
  suspect : Bool

def classify (rel : Path) (attrs : Attrs) (ledger : Ledger) (maxFileBytes : Nat) : Except Skip Seen :=
  match Kind.of attrs.kind with
  | none => .error ⟨rel, "guest: not a file, directory or symlink"⟩
  | some kind =>
    let side : Side := ⟨attrs.size, attrs.mtimeNs⟩
    let oversize := kind == .file && decide (maxFileBytes < side.size)
    let suspect := !oversize && (kind == .symlink || needsDigest (ledger.entries.get? rel) kind side false)
    .ok ⟨rel, ⟨kind, side.size, side.mtimeNs, none, none, oversize⟩, suspect⟩

section

variable (workspace : PassWorkspace) (guest : GuestView)

def content (rel : Path) (kind : Kind) : Except Fault (Digest × Option (List Char)) :=
  match kind with
  | .symlink =>
    (guest.readlink (joinGuest workspace.guestRoot rel)).map fun target =>
      (workspace.digestOfTarget target, some target)
  | _ => (guest.digest (joinGuest workspace.guestRoot rel)).map fun digest => (digest, none)

def resolveSuspect (probe : GuestProbe) (suspect : Path × State) : GuestProbe :=
  match content workspace guest suspect.1 suspect.2.kind with
  | .ok (digest, target) =>
    let size := match target with
      | some target => utf8Len target
      | none => suspect.2.size
    { probe with tree := probe.tree.insert suspect.1 { suspect.2 with size, digest := some digest, target } }
  | .error fault =>
    { probe with skipped := probe.skipped ++ [⟨suspect.1, s!"guest: cannot read it ({fault})"⟩] }

def resolveSuspects (suspects : List (Path × State)) (probe : GuestProbe) : GuestProbe :=
  suspects.foldl (resolveSuspect workspace guest) probe

structure Gathered where
  probe : GuestProbe
  suspects : List (Path × State)
  level : List Path

def Gathered.start : Gathered := ⟨⟨.empty, [], []⟩, [], []⟩

def Gathered.skip (gathered : Gathered) (skip : Skip) : Gathered :=
  { gathered with probe := { gathered.probe with skipped := gathered.probe.skipped ++ [skip] } }

def Gathered.see (gathered : Gathered) (seen : Seen) : Gathered :=
  if seen.suspect then
    { gathered with suspects := gathered.suspects ++ [(seen.rel, seen.state)] }
  else
    { gathered with probe := { gathered.probe with tree := gathered.probe.tree.insert seen.rel seen.state } }

def probePath (ledger : Ledger) (gathered : Gathered) (rel : Path) : Gathered :=
  match guest.lstat (joinGuest workspace.guestRoot rel) with
  | .ok (some attrs) =>
    match classify rel attrs ledger workspace.maxFileBytes with
    | .ok seen => gathered.see seen
    | .error skip => gathered.skip skip
  | .ok none => gathered
  | .error fault => gathered.skip ⟨rel, s!"guest: cannot read it ({fault})"⟩

def probeGuest (paths : List Path) (ledger : Ledger) : GuestProbe :=
  let gathered := paths.foldl (probePath workspace guest ledger) .start
  resolveSuspects workspace guest gathered.suspects gathered.probe

def guestLocks (candidates : List Path) : List Path :=
  candidates.filter fun rel =>
    match guest.lstat (joinGuest workspace.guestRoot rel) with
    | .ok none => false
    | _ => true

variable (ignores : Ignores) (ledger : Ledger)

def visitEntry (dir : Path) (gathered : Gathered) (entry : DirEntry) : Gathered :=
  let rel := joinRel dir entry.name
  let isDir := entry.attrs.kind == .dir
  if ignores.guestOwned rel isDir then
    if isLock rel then
      { gathered with probe := { gathered.probe with locks := gathered.probe.locks ++ [rel] } }
    else
      gathered
  else
    match classify rel entry.attrs ledger workspace.maxFileBytes with
    | .ok seen =>
      let gathered := if isDir then { gathered with level := gathered.level ++ [seen.rel] } else gathered
      gathered.see seen
    | .error skip => gathered.skip skip

def visitDir (gathered : Gathered) (dir : Path) : Gathered :=
  match guest.readdir (joinGuest workspace.guestRoot dir) with
  | .ok entries => entries.foldl (visitEntry workspace ignores ledger dir) gathered
  | .error fault =>
    gathered.skip ⟨if dir = [] then ['.'] else dir, s!"guest: cannot read the directory ({fault})"⟩

def walkLevels : Nat → Gathered → Option Gathered
  | 0, gathered => if gathered.level.isEmpty then some gathered else none
  | depth + 1, gathered =>
    if gathered.level.isEmpty then
      some gathered
    else
      walkLevels depth
        (gathered.level.foldl (visitDir workspace guest ignores ledger) { gathered with level := [] })

def guestWalk (depth : Nat) (hadAgreement : Bool) : Option (Except Fault GuestProbe) :=
  match guest.lstat workspace.guestRoot with
  | .error fault => some (.error fault)
  | .ok none =>
    if hadAgreement then
      some (.error "the workspace directory is gone from the guest")
    else
      some (.ok Gathered.start.probe)
  | .ok (some _) =>
    (walkLevels workspace guest ignores ledger depth { Gathered.start with level := [[]] }).map fun gathered =>
      .ok (resolveSuspects workspace guest gathered.suspects gathered.probe)

end

structure Pending where
  hostDirty : List Path
  guestDirty : List Path
  inFlight : List Path
  rescan : Bool
  lockCandidates : List Path
  resolved : SortedMap Path Winner

variable (workspace : PassWorkspace) (guest : GuestView) (ignores : Ignores)

/-- A vanished root must not be read as the deletion of all that was agreed. -/
def refuseVanishedRoot (ledger : Ledger) : Except Fault Unit :=
  if ledger.entries.size = 0 then
    .ok ()
  else
    match guest.lstat workspace.guestRoot with
    | .error fault => .error fault
    | .ok none => .error "the workspace directory is gone from the guest"
    | .ok (some _) => .ok ()

def scanLedger (pending : Pending) (ledger : Ledger) : Ledger :=
  if pending.rescan then
    ⟨.empty⟩
  else
    ⟨(pending.hostDirty ++ pending.guestDirty).foldl (fun entries path => entries.erase path) ledger.entries⟩

def observeGuest (depth : Nat) (scan : HostScan) (pending : Pending) (ledger : Ledger) :
    Option (Except Fault GuestProbe) :=
  if pending.rescan then
    guestWalk workspace guest ignores (scanLedger pending ledger) depth (ledger.entries.size != 0)
  else
    let reported := pending.guestDirty.filter fun path => !ignores.guestOwned path false
    let paths := (SortedMap.ofKeys (scan.tree.keys ++ ledger.entries.keys ++ reported)).keys
    some (.ok (probeGuest workspace guest paths (scanLedger pending ledger)))

def heldLocks (scan : HostScan) (probe : GuestProbe) (pending : Pending) : List Path :=
  let asked := if pending.rescan then [] else
    guestLocks workspace guest
      (pending.lockCandidates ++ (pending.guestDirty ++ pending.inFlight).filter isLock)
  scan.locks ++ probe.locks ++ asked

/-- What a pass reconciles: the guest's tree without what is the guest's own, and everything that one side could
not be read for, is still being written, or is deferred by a lock, left undecided. -/
def passInputs (scan : HostScan) (probe : GuestProbe) (pending : Pending) (ledger : Ledger) (caseFolding : Bool) :
    Inputs :=
  let tree := probe.tree.filter fun entry => !ignores.guestOwned entry.1 (entry.2.kind == .dir)
  let waiting := deferred (heldLocks workspace guest scan probe pending)
    (scan.tree.keys ++ tree.keys ++ ledger.entries.keys)
  { host := scan.tree
    guest := tree
    ledger
    undecided := pending.inFlight ++ (scan.skipped ++ probe.skipped).map Skip.path ++ waiting
    guestOwned := (ledger.entries.filter fun entry => ignores.guestOwned entry.1 (entry.2.kind == .dir)).keys
    resolved := pending.resolved
    maxFileBytes := workspace.maxFileBytes
    caseFolding }

/-- The part of a pass that computes the plan. -/
def planPass (toLowercase : Path → Path) (depth : Nat) (scan : HostScan) (pending : Pending) (ledger : Ledger)
    (caseFolding : Bool) : Option (Except Fault Plan) :=
  match refuseVanishedRoot workspace guest ledger with
  | .error fault => some (.error fault)
  | .ok () =>
    (observeGuest workspace guest ignores depth scan pending ledger).map fun observed =>
      observed.map fun probe =>
        reconcile toLowercase (passInputs workspace guest ignores scan probe pending ledger caseFolding)

end Vmlab.Workspace
