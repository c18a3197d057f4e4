import Vmlab.Library.SortedMap

/-!
# Freeze, thaw and freeze-point restore as plans

A disk file is an optional backing path, an active overlay and named overlay snapshots. A verb is a list of steps,
each with the steps that undo it; where one fails, the undos of those already done run in reverse. A planner answers
with a refusal or with the steps that the executor runs.
-/

namespace Vmlab.Freeze

abbrev Name := List Char

/-- The components of an absolute path. -/
abbrev Path := List Name

abbrev Content := Nat → Nat

abbrev Overlay := Nat → Option Nat

def Overlay.empty : Overlay := fun _ => none

def Overlay.over (overlay : Overlay) (below : Content) : Content := fun cluster => (overlay cluster).getD (below cluster)

def Overlay.onto (top base : Overlay) : Overlay := fun cluster => (top cluster).or (base cluster)

structure Snapshot where
  name : Name
  vmStateSize : Nat
  overlay : Overlay

structure Disk where
  backing : Option Path
  active : Overlay
  snapshots : List Snapshot
  readOnly : Bool

def Disk.find (disk : Disk) (name : Name) : Option Overlay := (disk.snapshots.find? (·.name = name)).map (·.overlay)

inductive Node where
  | dir
  | file (bytes : List UInt8)
  | disk (disk : Disk)

/-- The files, and a list of paths that has all of theirs. -/
structure Fs where
  nodes : Path → Option Node
  paths : List Path
  listed : ∀ path, nodes path ≠ none → path ∈ paths

def Fs.set (fs : Fs) (path : Path) (node : Node) : Fs where
  nodes := Function.update fs.nodes path (some node)
  paths := path :: fs.paths
  listed other present := by
    by_cases same : other = path
    · simp [same]
    · rw [Function.update_of_ne same] at present
      exact List.mem_cons_of_mem _ (fs.listed other present)

def Fs.without (fs : Fs) (gone : Path → Bool) : Fs where
  nodes path := if gone path then none else fs.nodes path
  paths := fs.paths
  listed path present := by
    by_cases removed : gone path = true
    · simp [removed] at present
    · simp only [removed, Bool.false_eq_true, if_false] at present
      exact fs.listed path present

def Fs.graft (fs : Fs) (source dest : Path) : Fs where
  nodes path := if dest.isPrefixOf path then fs.nodes (source ++ path.drop dest.length) else fs.nodes path
  paths := fs.paths ++ fs.paths.map fun path => dest ++ path.drop source.length
  listed path present := by
    by_cases inside : dest.isPrefixOf path = true
    · simp only [inside, if_true] at present
      obtain ⟨rest, rfl⟩ := List.isPrefixOf_iff_prefix.mp inside
      refine List.mem_append_right _ (List.mem_map.mpr ⟨_, fs.listed _ present, ?_⟩)
      simp
    · simp only [inside, Bool.false_eq_true, if_false] at present
      exact List.mem_append_left _ (fs.listed path present)

def Fs.read (fs : Fs) : Nat → Path → Content
  | 0, _ => fun _ => 0
  | depth + 1, path =>
    match fs.nodes path with
    | some (.disk disk) =>
      disk.active.over (match disk.backing with
        | some backing => fs.read depth backing
        | none => fun _ => 0)
    | _ => fun _ => 0

inductive Step where
  | snapshotCreate (disk : Path) (name : Name)
  | snapshotApply (disk : Path) (name : Name)
  | snapshotDelete (disk : Path) (name : Name)
  | exportOverlay (src : Path) (snapshot : Name) (backing dest : Path)
  | overlay (backing dest : Path)
  | commit (top : Path)
  | rebase (disk backing : Path)
  | rebaseSafe (disk backing : Path)
  | rename (source dest : Path)
  | readOnly (path : Path)
  | writable (path : Path)
  | createDir (path : Path)
  | copy (source dest : Path)
  | writeFile (path : Path) (bytes : List UInt8)
  | remove (path : Path)
  | removeIfEmpty (path : Path)

def Fs.modify (fs : Fs) (path : Path) (change : Disk → Option Disk) : Option Fs :=
  match fs.nodes path with
  | some (.disk disk) => if disk.readOnly then none else (change disk).map fun disk => fs.set path (.disk disk)
  | _ => none

def Disk.create (name : Name) (disk : Disk) : Disk :=
  { disk with snapshots := disk.snapshots ++ [⟨name, 0, disk.active⟩] }

def Disk.apply (name : Name) (disk : Disk) : Option Disk :=
  (disk.find name).map fun overlay => { disk with active := overlay }

def Disk.delete (name : Name) (disk : Disk) : Option Disk :=
  if disk.snapshots.any (·.name = name) then
    some { disk with snapshots := disk.snapshots.eraseP (·.name = name) }
  else none

section

variable (fs : Fs)

def Fs.chmod (path : Path) (readOnly : Bool) : Option Fs :=
  match fs.nodes path with
  | some (.disk disk) => some (fs.set path (.disk { disk with readOnly := readOnly }))
  | some _ => some fs
  | none => none

def Fs.rename (source dest : Path) : Option Fs :=
  match fs.nodes source, fs.nodes dest with
  | none, _ => none
  | _, some .dir => none
  | some .dir, _ => some ((fs.graft source dest).without fun path => source.isPrefixOf path && !dest.isPrefixOf path)
  | some node, _ => some ((fs.without (· = source)).set dest node)

def Fs.copy (source dest : Path) : Option Fs :=
  match fs.nodes source with
  | none => none
  | some .dir => some (fs.graft source dest)
  | some node => some (fs.set dest node)

def Fs.remove (path : Path) : Fs :=
  match fs.nodes path with
  | some .dir => fs.without fun other => path.isPrefixOf other
  | _ => fs.without (· = path)

def Fs.createDir (path : Path) : Option Fs :=
  (List.range (path.length + 1)).foldlM (fun fs length =>
    match fs.nodes (path.take length) with
    | none => some (fs.set (path.take length) .dir)
    | some .dir => some fs
    | some _ => none) fs

def runStep : Step → Option Fs
  | .snapshotCreate disk name => fs.modify disk fun file => some (file.create name)
  | .snapshotApply disk name => fs.modify disk (Disk.apply name)
  | .snapshotDelete disk name => fs.modify disk (Disk.delete name)
  | .exportOverlay src snapshot backing dest =>
    match fs.nodes src with
    | some (.disk disk) =>
      (disk.find snapshot).map fun overlay => fs.set dest (.disk ⟨some backing, overlay, [], false⟩)
    | _ => none
  | .overlay backing dest =>
    match fs.nodes backing with
    | some (.disk _) => some (fs.set dest (.disk ⟨some backing, .empty, [], false⟩))
    | _ => none
  | .commit top =>
    match fs.nodes top with
    | some (.disk disk) =>
      disk.backing.bind fun base => fs.modify base fun file => some { file with active := disk.active.onto file.active }
    | _ => none
  | .rebase disk backing => fs.modify disk fun file => some { file with backing := some backing }
  | .rebaseSafe disk backing =>
    fs.modify disk fun file =>
      let before := (file.backing.map (fs.read fs.paths.length)).getD fun _ => 0
      let after := fs.read fs.paths.length backing
      some { file with
        backing := some backing
        active := fun cluster =>
          (file.active cluster).or (if before cluster = after cluster then none else some (before cluster)) }
  | .rename source dest => fs.rename source dest
  | .readOnly path => fs.chmod path true
  | .writable path => fs.chmod path false
  | .createDir path => fs.createDir path
  | .copy source dest => fs.copy source dest
  | .writeFile path bytes => some (fs.set path (.file bytes))
  | .remove path => some (fs.remove path)
  | .removeIfEmpty path =>
    match fs.nodes path with
    | some .dir =>
      if fs.paths.all fun other => !path.isPrefixOf other || other = path || (fs.nodes other).isNone then
        some (fs.remove path)
      else some fs
    | _ => some fs

end

structure Planned where
  step : Step
  undo : List Step

structure Plan where
  steps : List Planned
  cleanup : List Step

def Plan.empty : Plan := ⟨[], []⟩

def Plan.push (plan : Plan) (step : Step) (undo : List Step) : Plan :=
  { plan with steps := plan.steps ++ [⟨step, undo⟩] }

def runSteps (fs : Fs) (steps : List Planned) : Option Fs := steps.foldlM (fun fs planned => runStep fs planned.step) fs

/-! ### Plans: functions of what `qemu-img info` and the lab state say about the disks -/

def holdSnapshot : Name := "vmlab-freeze-hold".toList

structure InternalSnapshot where
  name : Name
  vmStateSize : Nat

structure DiskFacts where
  path : Path
  backing : Option Path
  backingRelative : Bool
  snapshots : List InternalSnapshot

def DiskFacts.has (facts : DiskFacts) (name : Name) : Bool := facts.snapshots.any (·.name = name)

def DiskFacts.online (facts : DiskFacts) : List Name :=
  (facts.snapshots.filter fun snapshot => 0 < snapshot.vmStateSize).map (·.name)

def fileName (path : Path) : Name := path.getLast?.getD []

def beside (path : Path) (suffix : Name) : Path := path.dropLast ++ [fileName path ++ suffix]

def freezeDir : Name := "freeze".toList

def freezeRoot (labLocal : Path) : Path := labLocal ++ [freezeDir]

/-! ## Refusals -/

inductive Refusal where
  | linkedWorktree (verb : Name)
  | noMachines
  | running (verb : Name) (machines : List Name)
  | noSnapshot (machine snapshot : Name)
  | takenOnline (machine snapshot : Name)
  | locked (machine snapshot : Name) (generation : Nat)
  | neverBuilt (machine : Name) (disk : Path) (snapshot : Name)
  | noInternal (disk : Path) (snapshot machine : Name)
  | freezeHold (disk : Path)
  | relativeBacking (disk : Path)
  | notFrozen (machine : Name) (disk : Path) (generation : Nat) (snapshot : Name)
  | otherBacking (machine : Name) (disk backing : Path) (generation : Nat) (snapshot : Name)
  | restoreHold (disk : Path)
  | onlineInRestore (machine snapshot : Name) (disk : Path) (online : List Name)
  | onlineInThaw (machine : Name) (online : List Name)
  | noPoint (generation : Nat) (disk : Path)
  | chainHold (disk : Path)
  | storedTwice (machine snapshot : Name) (disk : Path)
  | pointMissing (layer : Path) (generation : Nat) (point : Name)

/-! ## What each file's active state equals -/

structure Build where
  plan : Plan
  active : Path → Option Name

def Build.empty : Build := ⟨.empty, fun _ => none⟩

def Build.push (build : Build) (step : Step) (undo : List Step) : Build :=
  { build with plan := build.plan.push step undo }

def Build.setActive (build : Build) (disk : Path) (name : Option Name) : Build :=
  { build with active := Function.update build.active disk name }

def Build.apply (build : Build) (disk : Path) (name : Name) : Build :=
  if build.active disk = some name then build
  else
    (build.push (.snapshotApply disk name)
      ((build.active disk).map (Step.snapshotApply disk)).toList).setActive disk (some name)

def Build.commit (build : Build) (top base : Path) : Build :=
  (build.push (.commit top) ((build.active base).map (Step.snapshotApply base)).toList).setActive base none

def Build.create (build : Build) (disk : Path) (name : Name) : Build :=
  (build.push (.snapshotCreate disk name) [.snapshotDelete disk name]).setActive disk (some name)

def Build.cleanup (build : Build) (step : Step) : Build :=
  { build with plan := { build.plan with cleanup := build.plan.cleanup ++ [step] } }

/-! ## Thaw -/

/-- A disk of the main lab, and the frozen files under it with their generations, nearest first. -/
structure ThawDisk where
  top : DiskFacts
  layers : List (Nat × DiskFacts)

structure ThawMachine where
  name : Name
  stopped : Bool
  disks : List ThawDisk
  onlineRecords : List Name

structure ThawInput where
  labLocal : Path
  inLinkedWorktree : Bool
  machines : List ThawMachine
  points : Nat → Option Name
  dropOnline : Bool

structure ThawPlan where
  plan : Plan
  survivors : List (Name × List Name)
  dropped : List (Name × List Name)

def thawSuffix : Name := ".thaw-old".toList

def nameSet (names : List Name) : List Name := names.dedup.insertionSort (· ≤ ·)

def DiskFacts.names (facts : DiskFacts) : List Name := (facts.snapshots.map (·.name)).filter (· ≠ holdSnapshot)

def ThawMachine.onlineIn (machine : ThawMachine) (facts : DiskFacts) : List Name :=
  facts.online ++ (facts.snapshots.map (·.name)).filter (· ∈ machine.onlineRecords)

/-- The online snapshots above a disk's base, which nothing carries. -/
def ThawMachine.stranded (machine : ThawMachine) : List Name :=
  nameSet (machine.disks.flatMap fun disk =>
    if disk.layers = [] then []
    else (disk.layers.dropLast.map (·.2) ++ [disk.top]).flatMap machine.onlineIn)

def ThawInput.point (input : ThawInput) (top : Path) (generation : Nat) : Except Refusal Name :=
  match input.points generation with
  | some name => .ok name
  | none => .error (.noPoint generation top)

structure Thawing where
  build : Build
  held : List Name
  basePoint : Name

def Thawing.carry (thawing : Thawing) (base layer : Path) (name : Name) : Thawing :=
  let build := thawing.build.apply base thawing.basePoint
  let build := build.apply layer name
  let build := build.commit layer base
  let build := build.create base name
  { thawing with build := build, held := thawing.held ++ [name] }

def Thawing.carryAll (machine : Name) (top base layer : Path) (stranded : List Name) :
    Thawing → List InternalSnapshot → Except Refusal Thawing
  | thawing, [] => .ok thawing
  | thawing, snapshot :: rest =>
    if snapshot.name = holdSnapshot ∨ snapshot.name ∈ stranded then
      thawing.carryAll machine top base layer stranded rest
    else if snapshot.name = thawing.basePoint ∧ snapshot.name ∈ thawing.held then
      -- the empty mark of a freeze-point restore is the base's own state
      thawing.carryAll machine top base layer stranded rest
    else if snapshot.name ∈ thawing.held then .error (.storedTwice machine snapshot.name top)
    else (thawing.carry base layer snapshot.name).carryAll machine top base layer stranded rest

def Build.rebaseOnto (build : Build) (layer : DiskFacts) (base : Path) : Build :=
  let backing := layer.backing.getD []
  if backing = base then build else build.push (.rebase layer.path base) [.rebase layer.path backing]

def Thawing.frozenLayer (input : ThawInput) (machine : Name) (top base : Path) (stranded : List Name)
    (thawing : Thawing) (layer : Nat × DiskFacts) : Except Refusal Thawing := do
  let own ← input.point top layer.1
  let build := thawing.build.push (.writable layer.2.path) [.readOnly layer.2.path]
  let build := build.setActive layer.2.path (some own)
  let thawing ← { thawing with build := build.rebaseOnto layer.2 base }.carryAll machine top base layer.2.path stranded
    layer.2.snapshots
  if own ∉ thawing.held then .error (.pointMissing layer.2.path layer.1 own)
  else .ok { thawing with build := thawing.build.apply base own, basePoint := own }

def Thawing.topLayer (machine : Name) (base : Path) (stranded : List Name) (thawing : Thawing) (top : DiskFacts) :
    Except Refusal Thawing := do
  let build := thawing.build.create top.path holdSnapshot
  let thawing ← { thawing with build := build.rebaseOnto top base }.carryAll machine top.path base top.path stranded
    top.snapshots
  let build := thawing.build.apply base thawing.basePoint
  let build := build.apply top.path holdSnapshot
  .ok { thawing with build := build.commit top.path base }

def Thawing.frozenLayers (input : ThawInput) (machine : Name) (top base : Path) (stranded : List Name) :
    Thawing → List (Nat × DiskFacts) → Except Refusal Thawing
  | thawing, [] => .ok thawing
  | thawing, layer :: rest => do
      let thawing ← thawing.frozenLayer input machine top base stranded layer
      thawing.frozenLayers input machine top base stranded rest

def thawDisk (input : ThawInput) (machine : Name) (stranded : List Name) (build : Build) (disk : ThawDisk) :
    Except Refusal (Build × List Name) :=
  match disk.layers.getLast? with
  | none => .ok (build, disk.top.names)
  | some (baseGeneration, base) =>
    let top := disk.top.path
    if disk.top.has holdSnapshot ∨ disk.layers.any (·.2.has holdSnapshot) then .error (.chainHold top)
    else do
      let build := build.push (.writable base.path) [.readOnly base.path]
      let basePoint ← input.point top baseGeneration
      let build := build.setActive base.path (some basePoint)
      let thawing ← Thawing.frozenLayers input machine top base.path stranded ⟨build, base.names, basePoint⟩
        disk.layers.dropLast.reverse
      let thawing ← thawing.topLayer machine base.path stranded disk.top
      let old := beside top thawSuffix
      let build := thawing.build.push (.rename top old) [.rename old top]
      let build := build.push (.rename base.path top) [.rename top base.path]
      .ok (build.cleanup (.remove old), thawing.held)

def thawDisks (input : ThawInput) (machine : Name) (stranded : List Name) :
    Build → List ThawDisk → Except Refusal (Build × List (List Name))
  | build, [] => .ok (build, [])
  | build, disk :: rest => do
      let (build, names) ← thawDisk input machine stranded build disk
      let (build, others) ← thawDisks input machine stranded build rest
      .ok (build, names :: others)

def thawMachines (input : ThawInput) : Build → List ThawMachine → Except Refusal (Build × ThawPlan)
  | build, [] => .ok (build, ⟨.empty, [], []⟩)
  | build, machine :: rest =>
    let stranded := machine.stranded
    if stranded ≠ [] ∧ !input.dropOnline then .error (.onlineInThaw machine.name stranded)
    else do
      let (build, survivors) ← thawDisks input machine.name stranded build machine.disks
      let (build, out) ← thawMachines input build rest
      .ok (build, { out with
        survivors := (survivors.head?.map fun names => (machine.name, nameSet names)).toList ++ out.survivors
        dropped := (if stranded = [] then [] else [(machine.name, stranded)]) ++ out.dropped })

def planThaw (input : ThawInput) : Except Refusal ThawPlan :=
  let running := (input.machines.filter fun machine => !machine.stopped).map (·.name)
  if input.inLinkedWorktree then .error (.linkedWorktree "thaw".toList)
  else if running ≠ [] then .error (.running "thaw".toList running)
  else do
    let (build, out) ← thawMachines input .empty input.machines
    .ok { out with plan := (build.cleanup (.remove (freezeRoot input.labLocal))).plan }

/-! ## What the steps do to the files, and what a disk reads as along its chain -/

open List
open Function (update)

variable {left right : Content} {name : Name} {node : Option Node} {facts : DiskFacts}
  {fs : Fs} {path : Path} {disk : Disk}

@[simp]
theorem nodes_set (fs : Fs) (path : Path) (node : Node) :
    (fs.set path node).nodes = update fs.nodes path (some node) := rfl

/-! ## Overlays -/

theorem onto_over (top base : Overlay) (below : Content) : (top.onto base).over below = top.over (base.over below) := by
  funext cluster
  simp only [Overlay.onto, Overlay.over]
  cases top cluster <;> rfl

/-! ## Reading through a chain -/

inductive Reads (fs : Fs) : Path → Content → Prop where
  | bottom {path : Path} {disk : Disk} : fs.nodes path = some (.disk disk) → disk.backing = none →
      Reads fs path (disk.active.over fun _ => 0)
  | through {path backing : Path} {disk : Disk} {below : Content} : fs.nodes path = some (.disk disk) →
      disk.backing = some backing → Reads fs backing below → Reads fs path (disk.active.over below)

def Below (fs : Fs) (disk : Disk) (below : Content) : Prop :=
  match disk.backing with
  | none => below = fun _ => 0
  | some backing => Reads fs backing below

def SnapshotReads (fs : Fs) (path : Path) (name : Name) (content : Content) : Prop :=
  ∃ disk overlay below, fs.nodes path = some (.disk disk) ∧ disk.find name = some overlay ∧ Below fs disk below ∧
    content = overlay.over below

variable {content : Content}

theorem reads_iff (found : fs.nodes path = some (.disk disk))
    : Reads fs path content ↔ ∃ below, Below fs disk below ∧ content = disk.active.over below := by
  constructor
  · intro reads
    cases reads with
    | bottom other none =>
      rw [found] at other
      cases other
      exact ⟨_, by rw [Below, none], rfl⟩
    | through other backed reads =>
      rw [found] at other
      cases other
      exact ⟨_, by rw [Below, backed]; exact reads, rfl⟩
  rintro ⟨below, beneath, rfl⟩
  rw [Below] at beneath
  split at beneath
  · rename_i none
    subst beneath
    exact .bottom found none
  · rename_i backing backed
    exact .through found backed beneath

theorem Reads.unique (first : Reads fs path left)
    (second : Reads fs path right) : left = right := by
  induction first generalizing right with
  | bottom found none =>
    obtain ⟨below, beneath, rfl⟩ := (reads_iff found).mp second
    rw [Below, none] at beneath
    rw [beneath]
  | through found backed reads ih =>
    obtain ⟨below, beneath, rfl⟩ := (reads_iff found).mp second
    rw [Below, backed] at beneath
    rw [ih beneath]

theorem Below.unique (first : Below fs disk left)
    (second : Below fs disk right) : left = right := by
  rw [Below] at first second
  cases backed : disk.backing with
  | none =>
    rw [backed] at first second
    exact first.trans second.symm
  | some backing =>
    rw [backed] at first second
    exact first.unique second

theorem SnapshotReads.unique
    (first : SnapshotReads fs path name left) (second : SnapshotReads fs path name right) : left = right := by
  obtain ⟨disk, overlay, below, found, named, beneath, rfl⟩ := first
  obtain ⟨other, otherOverlay, otherBelow, otherFound, otherNamed, otherBeneath, rfl⟩ := second
  rw [found] at otherFound
  cases otherFound
  rw [named] at otherNamed
  cases otherNamed
  rw [beneath.unique otherBeneath]

theorem Reads.outside {next : Fs} {touched : Path → Bool}
    (reads : Reads (fs.without touched) path content)
    (same : ∀ path, touched path = false → next.nodes path = fs.nodes path) : Reads next path content := by
  have keep : ∀ {path : Path} {disk : Disk}, (fs.without touched).nodes path = some (.disk disk) →
      next.nodes path = some (.disk disk) := by
    intro path disk found
    by_cases inside : touched path = true
    · simp [Fs.without, inside] at found
    have outside : touched path = false := by simpa using inside
    rw [same path outside]
    simpa [Fs.without, outside] using found
  induction reads with
  | bottom found none => exact .bottom (keep found) none
  | through found backed _ ih => exact .through (keep found) backed ih

/-! ## Finding snapshots -/

theorem find_create_self (disk : Disk) (fresh : disk.find name = none) :
    (disk.create name).find name = some disk.active := by
  rw [Disk.find, Option.map_eq_none_iff] at fresh
  simp [Disk.find, Disk.create, find?_append, fresh]

variable {other : Name} {overlay : Overlay}

theorem find_create_of_some (disk : Disk)
    (found : disk.find other = some overlay) : (disk.create name).find other = some overlay := by
  rw [Disk.find, Option.map_eq_some_iff] at found
  obtain ⟨snapshot, first, rfl⟩ := found
  simp [Disk.find, Disk.create, find?_append, first]

theorem find_create_of_ne (disk : Disk) (apart : other ≠ name) : (disk.create name).find other = disk.find other := by
  simp [Disk.find, Disk.create, find?_append, Ne.symm apart]

/-! ## What the facts say -/

/-- The facts that `qemu-img info` gives about the file at a path are those of a disk. -/
structure Describes (node : Option Node) (facts : DiskFacts) (disk : Disk) : Prop where
  found : node = some (.disk disk)
  backing : disk.backing = facts.backing
  snapshots : disk.snapshots.map (fun snapshot => (snapshot.name, snapshot.vmStateSize)) =
    facts.snapshots.map fun snapshot => (snapshot.name, snapshot.vmStateSize)

theorem Describes.names (describes : Describes node facts disk) :
    disk.snapshots.map (·.name) = facts.snapshots.map (·.name) := by
  have firsts := congrArg (List.map Prod.fst) describes.snapshots
  simpa [map_map, Function.comp_def] using firsts

theorem find_isSome_iff (disk : Disk) (name : Name) :
    (disk.find name).isSome = true ↔ name ∈ disk.snapshots.map (·.name) := by
  simp only [Disk.find, Option.isSome_map, find?_isSome, decide_eq_true_eq, mem_map]

theorem Describes.find_iff (describes : Describes node facts disk) (name : Name) :
    (disk.find name).isSome = true ↔ name ∈ facts.snapshots.map (·.name) := by
  rw [find_isSome_iff, describes.names]

theorem Describes.find_none (describes : Describes node facts disk) (absent : facts.has name = false) :
    disk.find name = none := by
  by_contra present
  have member := (describes.find_iff name).mp (Option.isSome_iff_ne_none.mpr present)
  simp only [DiskFacts.has, any_eq_false, decide_eq_true_eq] at absent
  obtain ⟨snapshot, listed, named⟩ := mem_map.mp member
  exact absent snapshot listed named

/-! ## Running a plan that is being built -/

section

variable (build : Build)

@[simp]
theorem active_apply (path : Path) (name : Name) :
    (build.apply path name).active = update build.active path (some name) := by
  by_cases already : build.active path = some name
  · rw [Build.apply, if_pos already, ← already, Function.update_eq_self]
  · rw [Build.apply, if_neg already]
    rfl

@[simp]
theorem active_push (step : Step) (undo : List Step) : (build.push step undo).active = build.active := rfl

@[simp]
theorem active_setActive (path : Path) (name : Option Name) :
    (build.setActive path name).active = update build.active path name := rfl

@[simp]
theorem active_commit (top base : Path) : (build.commit top base).active = update build.active base none := rfl

@[simp]
theorem active_create (path : Path) (name : Name) :
    (build.create path name).active = update build.active path (some name) := rfl

end

variable {after : Disk}

section

variable {build : Build} {nodes : Path → Option Node}

theorem runSteps_append (fs : Fs) (first second : List Planned) :
    runSteps fs (first ++ second) = (runSteps fs first).bind fun next => runSteps next second := by
  simp [runSteps, foldlM_append]

def Reaches (fs : Fs) (build : Build) (nodes : Path → Option Node) : Prop :=
  ∃ next, runSteps fs build.plan.steps = some next ∧ next.nodes = nodes

theorem Reaches.push (reaches : Reaches fs build nodes) {step : Step} {undo : List Step} {after : Path → Option Node}
    (runs : ∀ now : Fs, now.nodes = nodes → ∃ next, runStep now step = some next ∧ next.nodes = after) :
    Reaches fs (build.push step undo) after := by
  obtain ⟨now, ran, rfl⟩ := reaches
  obtain ⟨next, stepped, same⟩ := runs now rfl
  refine ⟨next, ?_, same⟩
  rw [Build.push, Plan.push, runSteps_append, ran]
  simp [runSteps, stepped]

theorem Reaches.setActive (reaches : Reaches fs build nodes) (disk : Path) (name : Option Name) :
    Reaches fs (build.setActive disk name) nodes := reaches

theorem modify_runs {change : Disk → Option Disk}
    (found : fs.nodes path = some (.disk disk)) (open_ : disk.readOnly = false) (changed : change disk = some after) :
    ∃ next, fs.modify path change = some next ∧ next.nodes = update fs.nodes path (some (.disk after)) := by
  exact ⟨fs.set path (.disk after), by simp [Fs.modify, found, open_, changed], rfl⟩

theorem chmod_runs (found : fs.nodes path = some (.disk disk))
    (readOnly : Bool) : ∃ next, fs.chmod path readOnly = some next ∧
      next.nodes = update fs.nodes path (some (.disk { disk with readOnly := readOnly })) :=
  ⟨fs.set path (.disk { disk with readOnly := readOnly }), by simp [Fs.chmod, found], rfl⟩

variable {dest : Path}

theorem rename_runs {source : Path} (found : fs.nodes source = some (.disk disk))
    (notDir : fs.nodes dest ≠ some .dir) : ∃ next, fs.rename source dest = some next ∧
      next.nodes = update (update fs.nodes source none) dest (some (.disk disk)) := by
  refine ⟨(fs.without (· = source)).set dest (.disk disk), ?_, ?_⟩
  · cases target : fs.nodes dest with
    | none => simp [Fs.rename, found, target]
    | some node =>
      cases node with
      | dir => exact absurd target notDir
      | file bytes | disk other => simp [Fs.rename, found, target]
  simp only [Fs.set, Fs.without]
  congr 1
  funext other
  by_cases same : other = source
  · simp [same]
  · simp [same]

variable (reaches : Reaches fs build nodes)
include reaches

variable (found : nodes path = some (.disk disk))
include found

theorem Reaches.writable (undo : List Step) : Reaches fs (build.push (.writable path) undo)
      (update nodes path (some (.disk { disk with readOnly := false }))) := by
  refine reaches.push ?_
  rintro now rfl
  exact chmod_runs found false

section

variable (open_ : disk.readOnly = false)
include open_

theorem Reaches.rebase (backing : Path) (undo : List Step) : Reaches fs (build.push (.rebase path backing) undo)
      (update nodes path (some (.disk { disk with backing := some backing }))) := by
  refine reaches.push ?_
  rintro now rfl
  exact modify_runs found open_ rfl

theorem Reaches.create (name : Name) :
    Reaches fs (build.create path name) (update nodes path (some (.disk (disk.create name)))) := by
  refine (reaches.push ?_).setActive path (some name)
  rintro now rfl
  exact modify_runs found open_ rfl

theorem Reaches.apply (named : disk.find name = some overlay)
    (current : build.active path = some name → disk.active = overlay) :
    Reaches fs (build.apply path name) (update nodes path (some (.disk { disk with active := overlay }))) := by
  by_cases already : build.active path = some name
  · have same : { disk with active := overlay } = disk := by
      rw [← current already]
    rw [Build.apply, if_pos already, same, ← found, Function.update_eq_self]
    exact reaches
  rw [Build.apply, if_neg already]
  refine (reaches.push ?_).setActive path (some name)
  rintro now rfl
  exact modify_runs found open_ (by simp [Disk.apply, named])

end

theorem Reaches.commit {base : Path} {baseDisk : Disk} (backed : disk.backing = some base)
    (baseFound : nodes base = some (.disk baseDisk)) (open_ : baseDisk.readOnly = false) :
    Reaches fs (build.commit path base)
      (update nodes base (some (.disk { baseDisk with active := disk.active.onto baseDisk.active }))) := by
  refine (reaches.push ?_).setActive base none
  rintro now rfl
  obtain ⟨next, modified, same⟩ : ∃ next, (now.modify base fun file =>
      some { file with active := disk.active.onto file.active }) = some next ∧ next.nodes = _ :=
    modify_runs baseFound open_ rfl
  exact ⟨next, by simpa [runStep, found, backed] using modified, same⟩

theorem Reaches.rename (notDir : nodes dest ≠ some .dir) (undo : List Step) :
    Reaches fs (build.push (.rename path dest) undo)
      (update (update nodes path none) dest (some (.disk disk))) := by
  refine reaches.push ?_
  rintro now rfl
  exact rename_runs found notDir

end

end Vmlab.Freeze
