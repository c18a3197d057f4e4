import Vmlab.Template.StoreProperties

/-!
# The in-use check of the template store

What is scanned before a disk is deleted (`supervisor/backing.rs`, `supervisor/store.rs`): every qcow2 in the working
data of every registered lab and of its worktree family, and the backing chain of each.
-/

namespace Vmlab.Supervisor

open Template

structure Path where
  absolute : Bool
  parts : List Name
  deriving DecidableEq

namespace Path

def join (dir path : Path) : Path := if path.absolute then path else ⟨dir.absolute, dir.parts ++ path.parts⟩

def below (dir : Path) (parts : List Name) : Path := ⟨dir.absolute, dir.parts ++ parts⟩

def parent (path : Path) : Option Path := if path.parts = [] then none else some ⟨path.absolute, path.parts.dropLast⟩

def fileName (path : Path) : Option Name := path.parts.getLast?

def display (path : Path) : String :=
  (if path.absolute then "/" else "") ++ String.intercalate "/" (path.parts.map String.ofList)

end Path

def extension (name : Name) : Option Name :=
  let after := name.reverse.takeWhile (· ≠ '.')
  match name.reverse.drop after.length with
  | _ :: stem => if stem = [] then none else some after.reverse
  | [] => none

/-- The host's file system. Paths with one canonical path are one directory, whatever is below it. -/
structure Files where
  canonicalize : Path → Option Path
  readDir : Path → List Name
  isDir : Path → Bool
  isFile : Path → Bool
  fileSize : Path → Nat
  backingFile : Path → Option Path
  canonical : ∀ path real, canonicalize path = some real → canonicalize real = some real
  shared : ∀ left right real, canonicalize left = some real → canonicalize right = some real → ∀ parts,
    canonicalize (left.below parts) = canonicalize (right.below parts) ∧
    readDir (left.below parts) = readDir (right.below parts) ∧
    isDir (left.below parts) = isDir (right.below parts) ∧
    isFile (left.below parts) = isFile (right.below parts) ∧
    backingFile (left.below parts) = backingFile (right.below parts)

def Files.key (files : Files) (path : Path) : Path := (files.canonicalize path).getD path

/-! ### The labs to scan -/

inductive LabLabel where
  | registered (name : String)
  | unregistered (root : Path)
  deriving DecidableEq

structure ScanRoot where
  root : Path
  label : LabLabel
  deriving DecidableEq

/-- The supervisor's registry and what git says of its labs' checkouts. -/
structure Labs where
  registered : List (String × Path)
  mainOf : Path → Option Path
  worktreesOf : Path → List Path

def Labs.family (labs : Labs) (root : Path) : List Path :=
  let main := (labs.mainOf root).getD root
  main :: labs.worktreesOf main

def Labs.candidates (labs : Labs) : List ScanRoot :=
  labs.registered.map (fun lab => ⟨lab.2, .registered lab.1⟩) ++
    labs.registered.flatMap fun lab => (labs.family lab.2).map fun member => ⟨member, .unregistered member⟩

def scanOnce (files : Files) : List ScanRoot → List Path → List ScanRoot
  | [], _ => []
  | scan :: rest, seen =>
    if files.key scan.root ∈ seen then scanOnce files rest seen
    else scan :: scanOnce files rest (files.key scan.root :: seen)

def scanRoots (files : Files) (labs : Labs) : List ScanRoot := scanOnce files labs.candidates []

/-- Where `VMLAB_WORK_DIR` moves the working data to, and the hash of a path that names a lab there. -/
structure WorkDir where
  base : Option Path
  shortHash : Path → Name

def labLocalDir (files : Files) (workDir : WorkDir) (root : Path) : Path :=
  match workDir.base with
  | some base =>
    base.below [root.fileName.getD "lab".toList ++ "-".toList ++ workDir.shortHash (files.key root)]
  | none => root.below [".vmlab".toList]

/-! ### The disks of a lab -/

structure LabDisk where
  path : Path
  machine : Name
  generation : Option Nat
  deriving DecidableEq

def sortNames (names : List Name) : List Name := names.insertionSort (· ≤ ·)

def machineDisks (files : Files) (dir : Path) (generation : Option Nat) : List LabDisk :=
  (sortNames ((files.readDir dir).filter fun machine => files.isDir (dir.below [machine]))).flatMap fun machine =>
    (sortNames ((files.readDir (dir.below [machine])).filter fun file =>
      extension file = some "qcow2".toList && files.isFile (dir.below [machine, file]))).map fun file =>
        ⟨dir.below [machine, file], machine, generation⟩

def parseU32 (text : Name) : Option Nat :=
  let digits := if text.head? = some '+' then text.tail else text
  if digits ≠ [] ∧ digits.all Char.isDigit then
    let value := digits.foldl (fun value digit => 10 * value + (digit.toNat - '0'.toNat)) 0
    if value < 2 ^ 32 then some value else none
  else none

def freezeRoot (labLocal : Path) : Path := labLocal.below ["freeze".toList]

def generations (files : Files) (labLocal : Path) : List Nat :=
  (((files.readDir (freezeRoot labLocal)).filter fun name =>
    files.isDir ((freezeRoot labLocal).below [name])).filterMap parseU32).insertionSort (· ≤ ·)

def generationDir (labLocal : Path) (generation : Nat) : Path :=
  (freezeRoot labLocal).below [Nat.toDigits 10 generation]

def labDisks (files : Files) (labLocal : Path) : List LabDisk :=
  machineDisks files (labLocal.below ["vms".toList]) none ++
    machineDisks files (labLocal.below ["containers".toList]) none ++
    (generations files labLocal).flatMap fun generation =>
      machineDisks files (generationDir labLocal generation) (some generation)

def owner (label : LabLabel) (disk : LabDisk) : String :=
  let machine := match disk.generation with
    | some generation =>
      String.ofList disk.machine ++ " (freeze generation " ++ String.ofList (Nat.toDigits 10 generation) ++ ")"
    | none => String.ofList disk.machine
  match label with
  | .registered lab => lab ++ "/" ++ machine
  | .unregistered root => machine ++ " in the lab at " ++ root.display

/-! ### Backing chains -/

def maxDepth : Nat := 64

def resolveBacking (image backing : Path) : Path :=
  if backing.absolute then backing
  else
    match image.parent with
    | some dir => dir.join backing
    | none => backing

abbrev Headers := List (Path × Option Path)

def readHeader (files : Files) (image : Path) (headers : Headers) : Option Path × Headers :=
  match headers.find? fun entry => entry.1 = image with
  | some hit => (hit.2, headers)
  | none => (files.backingFile image, (image, files.backingFile image) :: headers)

def walk (files : Files) : Nat → Path → List Path → Headers → List Path × Headers
  | 0, _, _, headers => ([], headers)
  | depth + 1, image, seen, headers =>
    let (backing, headers) := readHeader files image headers
    match backing with
    | none => ([], headers)
    | some backing =>
      match files.canonicalize (resolveBacking image backing) with
      | none => ([], headers)
      | some next =>
        if next ∈ seen then ([], headers)
        else
          let (chain, headers) := walk files depth next (next :: seen) headers
          (next :: chain, headers)

def backingChain (files : Files) (disk : Path) (headers : Headers) : List Path × Headers :=
  walk files maxDepth disk (files.canonicalize disk).toList headers

def scanDisks (files : Files) : List (LabLabel × LabDisk) → Headers → List (Path × String)
  | [], _ => []
  | (label, disk) :: rest, headers =>
    let (chain, headers) := backingChain files disk.path headers
    chain.map (fun image => (image, owner label disk)) ++ scanDisks files rest headers

def scannedDisks (files : Files) (labs : Labs) (workDir : WorkDir) : List (LabLabel × LabDisk) :=
  (scanRoots files labs).flatMap fun scan =>
    (labDisks files (labLocalDir files workDir scan.root)).map fun disk => (scan.label, disk)

def clonesByBacking (files : Files) (labs : Labs) (workDir : WorkDir) : List (Path × String) :=
  scanDisks files (scannedDisks files labs workDir) []

/-! ### Removing and pruning -/

def namedOnce : List String → List String → List String
  | [], _ => []
  | who :: rest, named => if who ∈ named then namedOnce rest named else who :: namedOnce rest (who :: named)

def backedClonesReason (files : Files) (clones : List (Path × String)) (doomed : List Path) : Option String :=
  let doomed := doomed.map files.key
  match namedOnce ((clones.filter fun clone => decide (clone.1 ∈ doomed)).map Prod.snd) [] with
  | [] => none
  | [one] => some ("the clone of machine " ++ one ++ " is backed by it")
  | many => some ("the clones of machines " ++ String.intercalate ", " many ++ " are backed by it")

section

variable (store : Path)

def versionDir (key : Key) (version : Name) : Path := store.below [key.arch, key.name, version]

def baseDisk (key : Key) (version : Name) : Path :=
  (versionDir store key version).below ["disk.qcow2".toList]

def variantDisk (key : Key) (version variant : Name) : Path :=
  (versionDir store key version).below ["variants".toList, variant, "disk.qcow2".toList]

/-- The base disk, then every variant overlay. -/
def disks (key : Key) (version : Name) (record : TemplateMeta) : List Path :=
  baseDisk store key version :: record.variants.map fun variant => variantDisk store key version variant.name

end

def versionInUse (files : Files) (clones : List (Path × String)) (store : Path) (key : Key) (version : Name)
    (world : World) : Option String :=
  match world.store.get key version with
  | none => none
  | some dir =>
    match readMeta dir with
    | .error _ => none
    | .ok record => backedClonesReason files clones (disks store key version record)

def remove (files : Files) (labs : Labs) (workDir : WorkDir) (store : Path) (key : Key) (version : Option Name)
    (variant : Option Name) (force : Bool) : StoreM Unit :=
  let clones := if force then [] else clonesByBacking files labs workDir
  match version, variant with
  | none, _ =>
    throw (.error (.variant ("specify the exact version to remove, e.g. " ++ String.ofList key.arch ++ "/" ++
      String.ofList key.name ++ "@<version>")))
  | some version, none => fun world =>
    Template.remove key version force (versionInUse files clones store key version world) world
  | some version, some variant =>
    Template.removeVariant key version variant force
      (backedClonesReason files clones [variantDisk store key version variant])

def familyMatches (filter : Option Name) (key : Key) : Bool :=
  match filter with
  | none => true
  | some filter =>
    let arch := filter.takeWhile (· ≠ '/')
    match filter.drop arch.length with
    | [] => filter = key.name
    | _ :: name => arch = key.arch && (name = [] || name = key.name)

def keyOf (record : TemplateMeta) : Key := ⟨record.arch, record.name⟩

def addToFamily (families : List (Key × List TemplateMeta)) (record : TemplateMeta) :
    List (Key × List TemplateMeta) :=
  match families.getLast? with
  | some (key, members) =>
    if key = keyOf record then families.dropLast ++ [(key, members ++ [record])]
    else families ++ [(keyOf record, [record])]
  | none => [(keyOf record, [record])]

def superseded (templates : List TemplateMeta) (filter : Option Name) (keep : Nat) : List TemplateMeta :=
  let families := (templates.filter fun record => familyMatches filter (keyOf record)).foldl addToFamily []
  families.flatMap fun family => family.2.take (family.2.length - keep)

structure PrunePlan where
  remove : List (Key × Name)
  skipped : List (Key × Name)
  freed : Nat
  applied : Bool

def removeEach : List (Key × Name) → StoreM Unit
  | [] => pure ()
  | (key, version) :: rest => do
      Template.remove key version true none
      removeEach rest

def held (files : Files) (store : Path) (inUse : List Path) (record : TemplateMeta) : Bool :=
  (disks store (keyOf record) record.version record).any fun disk => decide (files.key disk ∈ inUse)

def prune (files : Files) (labs : Labs) (workDir : WorkDir) (store : Path) (templates : List TemplateMeta)
    (filter : Option Name) (keep : Nat) (apply force : Bool) : StoreM PrunePlan :=
  if keep = 0 then
    throw (.error (.variant "keep must be >= 1 (use `store.remove` to remove specific versions)"))
  else
    let candidates := superseded templates filter keep
    let inUse := if force || candidates.isEmpty then [] else (clonesByBacking files labs workDir).map Prod.fst
    let skipped := candidates.filter (held files store inUse)
    let toRemove := candidates.filter fun record => !held files store inUse record
    let named := List.map fun record : TemplateMeta => (keyOf record, record.version)
    let freed := (toRemove.flatMap fun record => disks store (keyOf record) record.version record).map files.fileSize
    let plan : PrunePlan := ⟨named toRemove, named skipped, freed.sum, apply⟩
    if !apply then pure plan
    else do
      removeEach (named toRemove)
      pure plan

/-! ## What the in-use check protects: a walk stops after 64 images, but each frozen disk starts its own -/

open Template Library List

variable {files : Files} {headers : Headers} {labs : Labs} {workDir : WorkDir} {image disk : Path} {images : List Path}
    {key : Key} {version : Name}

/-! ### The walk without its memory -/

def nextImage (files : Files) (image : Path) : Option Path :=
  (files.backingFile image).bind fun backing => files.canonicalize (resolveBacking image backing)

def follow (files : Files) : Nat → Path → List Path → List Path
  | 0, _, _ => []
  | depth + 1, image, seen =>
    match nextImage files image with
    | none => []
    | some next => if next ∈ seen then [] else next :: follow files depth next (next :: seen)

def Remembers (files : Files) (headers : Headers) : Prop := ∀ entry ∈ headers, entry.2 = files.backingFile entry.1

theorem readHeader_remembers (known : Remembers files headers) (image : Path) :
    (readHeader files image headers).1 = files.backingFile image ∧
      Remembers files (readHeader files image headers).2 := by
  unfold readHeader
  cases found : headers.find? fun entry => entry.1 = image with
  | none =>
    refine ⟨rfl, ?_⟩
    intro entry member
    rcases mem_cons.mp member with same | older
    · rw [same]
    · exact known entry older
  | some hit =>
    have same : hit.1 = image := by simpa using find?_some found
    refine ⟨?_, known⟩
    dsimp only
    rw [known hit (mem_of_find?_eq_some found), same]

theorem walk_eq_follow (depth : Nat) (image : Path) (seen : List Path)
    (known : Remembers files headers) : (walk files depth image seen headers).1 = follow files depth image seen ∧
      Remembers files (walk files depth image seen headers).2 := by
  induction depth generalizing image seen headers with
  | zero => exact ⟨rfl, known⟩
  | succ depth ih =>
    obtain ⟨read, kept⟩ := readHeader_remembers known image
    simp only [walk, follow, nextImage]
    rw [read]
    cases files.backingFile image with
    | none => exact ⟨rfl, kept⟩
    | some backing =>
      simp only [Option.bind_some]
      cases files.canonicalize (resolveBacking image backing) with
      | none => exact ⟨rfl, kept⟩
      | some next =>
        dsimp only
        by_cases repeated : next ∈ seen
        · rw [if_pos repeated, if_pos repeated]
          exact ⟨rfl, kept⟩
        rw [if_neg repeated, if_neg repeated]
        obtain ⟨same, still⟩ := ih next (next :: seen) kept
        exact ⟨congrArg (next :: ·) same, still⟩

def imagesBehind (files : Files) (disk : Path) : List Path :=
  follow files maxDepth disk (files.canonicalize disk).toList

theorem scanDisks_eq (disks : List (LabLabel × LabDisk)) (known : Remembers files headers) :
    scanDisks files disks headers =
      disks.flatMap fun entry => (imagesBehind files entry.2.path).map fun image => (image, owner entry.1 entry.2) := by
  induction disks generalizing headers with
  | nil => rfl
  | cons entry rest ih =>
    obtain ⟨same, still⟩ := walk_eq_follow maxDepth entry.2.path (files.canonicalize entry.2.path).toList known
    simp only [scanDisks, flatMap_cons, backingChain, imagesBehind]
    rw [same, ih still]
    rfl

theorem mem_clonesByBacking
    {entry : LabLabel × LabDisk} (scanned : entry ∈ scannedDisks files labs workDir)
    (behind : image ∈ imagesBehind files entry.2.path) :
    image ∈ (clonesByBacking files labs workDir).map Prod.fst := by
  have nothing : Remembers files [] := by intro entry member; cases member
  unfold clonesByBacking
  rw [scanDisks_eq _ nothing]
  refine mem_map.mpr ⟨(image, owner entry.1 entry.2), ?_, rfl⟩
  exact mem_flatMap.mpr ⟨entry, scanned, mem_map.mpr ⟨image, behind, rfl⟩⟩

/-! ### Backing chains -/

def Linked (files : Files) : Path → List Path → Prop
  | _, [] => True
  | image, next :: rest => nextImage files image = some next ∧ Linked files next rest

/-- A backing chain that starts at one of the labs' disks: it goes from disk to frozen disk, and ends in the store,
where a variant and its base are well within the depth of a walk. -/
inductive ChainFrom (files : Files) (lab : Path → Prop) : Path → List Path → Prop
  | store {disk : Path} {images : List Path} :
      lab disk → Linked files disk images → images.length ≤ maxDepth → ChainFrom files lab disk images
  | frozen {disk image frozen : Path} {images : List Path} :
      lab disk → nextImage files disk = some image → files.canonicalize frozen = some image →
      ChainFrom files lab frozen images → ChainFrom files lab disk (image :: images)

def Acyclic (files : Files) (disk : Path) (images : List Path) : Prop :=
  ((files.canonicalize disk).toList ++ images).Nodup

theorem mem_follow_of_linked {depth : Nat} {seen : List Path}
    (linked : Linked files image images) (short : images.length ≤ depth) (once : images.Nodup)
    (fresh : ∀ other ∈ images, other ∉ seen) : ∀ other ∈ images, other ∈ follow files depth image seen := by
  induction images generalizing depth image seen with
  | nil =>
    intro other member
    cases member
  | cons next rest ih =>
    cases depth with
    | zero => simp at short
    | succ depth =>
      obtain ⟨backed, linked⟩ := linked
      obtain ⟨notAgain, once⟩ := nodup_cons.mp once
      have later : ∀ other ∈ rest, other ∉ next :: seen := by
        intro other member repeated
        rcases mem_cons.mp repeated with same | older
        · exact notAgain (same ▸ member)
        · exact fresh other (mem_cons_of_mem next member) older
      have found := ih linked (Nat.le_of_succ_le_succ short) once later
      intro other member
      simp only [follow, backed]
      rw [if_neg (fresh next mem_cons_self)]
      rcases mem_cons.mp member with same | older
      · rw [same]
        exact mem_cons_self
      · exact mem_cons_of_mem next (found other older)

theorem ChainFrom.found {lab : Path → Prop}
    (chain : ChainFrom files lab disk images) (acyclic : Acyclic files disk images) :
    ∀ image ∈ images, ∃ start, lab start ∧ image ∈ imagesBehind files start := by
  induction chain with
  | @store disk images start linked short =>
    obtain ⟨-, once, apart⟩ := nodup_append.mp acyclic
    intro image member
    refine ⟨disk, start, mem_follow_of_linked linked short once ?_ image member⟩
    intro other member seen
    exact apart other seen other member rfl
  | @frozen disk next frozen images start backed spelled rest ih =>
    obtain ⟨-, once, apart⟩ := nodup_append.mp acyclic
    have later : Acyclic files frozen images := by
      unfold Acyclic
      rw [spelled]
      exact once
    intro image member
    rcases mem_cons.mp member with same | older
    · refine ⟨disk, start, ?_⟩
      have single : Linked files disk [next] := ⟨backed, trivial⟩
      refine mem_follow_of_linked single (by simp [maxDepth]) (nodup_singleton next) ?_ image (by simp [same])
      intro other member seen
      rw [mem_singleton.mp member] at seen
      exact apart next seen next mem_cons_self rfl
    · exact ih later image older

/-! ### One directory under two names -/

structure Twin (files : Files) (left right : Path) : Prop where
  canonicalize : ∀ parts, files.canonicalize (left.below parts) = files.canonicalize (right.below parts)
  readDir : ∀ parts, files.readDir (left.below parts) = files.readDir (right.below parts)
  isDir : ∀ parts, files.isDir (left.below parts) = files.isDir (right.below parts)
  isFile : ∀ parts, files.isFile (left.below parts) = files.isFile (right.below parts)
  backingFile : ∀ parts, files.backingFile (left.below parts) = files.backingFile (right.below parts)

namespace Twin

theorem refl (files : Files) (path : Path) : Twin files path path :=
  ⟨fun _ => rfl, fun _ => rfl, fun _ => rfl, fun _ => rfl, fun _ => rfl⟩

theorem of_canonical {left right real : Path} (first : files.canonicalize left = some real)
    (second : files.canonicalize right = some real) : Twin files left right where
  canonicalize parts := (files.shared left right real first second parts).1
  readDir parts := (files.shared left right real first second parts).2.1
  isDir parts := (files.shared left right real first second parts).2.2.1
  isFile parts := (files.shared left right real first second parts).2.2.2.1
  backingFile parts := (files.shared left right real first second parts).2.2.2.2

end Twin

@[simp] theorem Path.below_below (dir : Path) (first second : List Name) :
    (dir.below first).below second = dir.below (first ++ second) := by
  simp [Path.below, append_assoc]

namespace Twin

variable {left right : Path}

theorem below (twin : Twin files left right) (parts : List Name) :
    Twin files (left.below parts) (right.below parts) := by
  constructor
  all_goals
    intro more
    rw [Path.below_below, Path.below_below]
  · exact twin.canonicalize _
  · exact twin.readDir _
  · exact twin.isDir _
  · exact twin.isFile _
  · exact twin.backingFile _

variable {parts : List Name} (twin : Twin files left right) (file : parts ≠ [])
include twin file

theorem nextImage_eq : nextImage files (left.below parts) = nextImage files (right.below parts) := by
  have resolved : ∀ (dir backing : Path), backing.absolute = false →
      resolveBacking (dir.below parts) backing = dir.below (parts.dropLast ++ backing.parts) := by
    intro dir backing relative
    have inside : dir.parts ++ parts ≠ [] := by simp [file]
    simp [resolveBacking, relative, Path.parent, Path.below, Path.join, inside, dropLast_append_of_ne_nil file]
  unfold nextImage
  rw [twin.backingFile parts]
  cases files.backingFile (right.below parts) with
  | none => rfl
  | some backing =>
    simp only [Option.bind_some]
    cases kind : backing.absolute with
    | true => simp [resolveBacking, kind]
    | false =>
      rw [resolved left backing kind, resolved right backing kind]
      exact twin.canonicalize _

theorem imagesBehind_eq : imagesBehind files (left.below parts) = imagesBehind files (right.below parts) := by
  unfold imagesBehind maxDepth follow
  rw [twin.nextImage_eq file, twin.canonicalize parts]

end Twin

theorem mem_machineDisks {dir : Path} {generation : Option Nat} {disk : LabDisk} :
    disk ∈ machineDisks files dir generation ↔
      ∃ machine file, (machine ∈ files.readDir dir ∧ files.isDir (dir.below [machine]) = true) ∧
        (file ∈ files.readDir (dir.below [machine]) ∧ extension file = some "qcow2".toList ∧
          files.isFile (dir.below [machine, file]) = true) ∧
        disk = ⟨dir.below [machine, file], machine, generation⟩ := by
  simp only [machineDisks, sortNames, mem_flatMap, mem_map, mem_insertionSort, List.mem_filter,
    Bool.and_eq_true, decide_eq_true_eq]
  constructor
  · rintro ⟨machine, inside, file, present, rfl⟩
    exact ⟨machine, file, inside, present, rfl⟩
  · rintro ⟨machine, file, inside, present, rfl⟩
    exact ⟨machine, inside, file, present, rfl⟩

section

variable {left right : Path} (twin : Twin files left right)
include twin

theorem Twin.machineDisks
    {generation : Option Nat} {disk : LabDisk} (member : disk ∈ machineDisks files left generation) :
    ∃ other ∈ Supervisor.machineDisks files right generation,
      imagesBehind files other.path = imagesBehind files disk.path := by
  obtain ⟨machine, file, ⟨listed, isDir⟩, ⟨present, suffix, isFile⟩, rfl⟩ := mem_machineDisks.mp member
  have readDir := twin.readDir []
  simp only [Path.below, append_nil] at readDir
  rw [readDir] at listed
  rw [twin.isDir] at isDir
  rw [twin.readDir] at present
  rw [twin.isFile] at isFile
  refine ⟨_, mem_machineDisks.mpr ⟨machine, file, ⟨listed, isDir⟩, ⟨present, suffix, isFile⟩, rfl⟩, ?_⟩
  exact (twin.imagesBehind_eq (by simp)).symm

theorem Twin.generations_eq : generations files left = generations files right := by
  have readDir := (twin.below ["freeze".toList]).readDir []
  simp only [Path.below_below, append_nil] at readDir
  simp only [generations, freezeRoot, Path.below_below]
  rw [readDir]
  simp only [twin.isDir]

theorem Twin.labDisks {disk : LabDisk} (member : disk ∈ labDisks files left) :
    ∃ other ∈ Supervisor.labDisks files right, imagesBehind files other.path = imagesBehind files disk.path := by
  simp only [Supervisor.labDisks, mem_append, mem_flatMap] at member ⊢
  rcases member with (vm | container) | ⟨generation, present, frozen⟩
  · obtain ⟨other, found, same⟩ := (twin.below ["vms".toList]).machineDisks vm
    exact ⟨other, .inl (.inl found), same⟩
  · obtain ⟨other, found, same⟩ := (twin.below ["containers".toList]).machineDisks container
    exact ⟨other, .inl (.inr found), same⟩
  have dirs := (twin.below ["freeze".toList]).below [Nat.toDigits 10 generation]
  obtain ⟨other, found, same⟩ := dirs.machineDisks frozen
  exact ⟨other, .inr ⟨generation, twin.generations_eq ▸ present, found⟩, same⟩

end

/-! ### Every lab is scanned -/

theorem scanOnce_covers {candidates : List ScanRoot} {seen : List Path} {scan : ScanRoot}
    (member : scan ∈ candidates) (fresh : files.key scan.root ∉ seen) :
    ∃ other ∈ scanOnce files candidates seen, files.key other.root = files.key scan.root := by
  induction candidates generalizing seen with
  | nil => cases member
  | cons first rest ih =>
    unfold scanOnce
    by_cases same : files.key first.root = files.key scan.root
    · rw [if_neg (same ▸ fresh)]
      exact ⟨first, mem_cons_self, same⟩
    have later : scan ∈ rest := by
      rcases mem_cons.mp member with here | later
      · exact absurd (congrArg (fun scan => files.key scan.root) here.symm) same
      · exact later
    split
    · exact ih later fresh
    have still : files.key scan.root ∉ files.key first.root :: seen := by
      intro repeated
      rcases mem_cons.mp repeated with here | older
      · exact same here.symm
      · exact fresh older
    obtain ⟨other, found, spelled⟩ := ih later still
    exact ⟨other, mem_cons_of_mem first found, spelled⟩

theorem first_of_scanOnce {candidates : List ScanRoot} {seen : List Path} {scan : ScanRoot}
    (member : scan ∈ scanOnce files candidates seen) : files.key scan.root ∉ seen ∧
      candidates.find? (fun other => files.key other.root = files.key scan.root) = some scan := by
  induction candidates generalizing seen with
  | nil => cases member
  | cons first rest ih =>
    unfold scanOnce at member
    split at member
    · next known =>
      obtain ⟨fresh, found⟩ := ih member
      refine ⟨fresh, ?_⟩
      rw [find?_cons_of_neg]
      · exact found
      · simpa using fun same : files.key first.root = files.key scan.root => fresh (same ▸ known)
    next unknown =>
    rcases mem_cons.mp member with rfl | later
    · exact ⟨unknown, find?_cons_of_pos (by simp)⟩
    obtain ⟨fresh, found⟩ := ih later
    rw [mem_cons, not_or] at fresh
    refine ⟨fresh.2, ?_⟩
    rw [find?_cons_of_neg]
    · exact found
    · simpa using Ne.symm fresh.1

theorem Files.key_key (files : Files) (path : Path) : files.key (files.key path) = files.key path := by
  unfold Files.key
  cases resolved : files.canonicalize path with
  | none => simp [resolved]
  | some real => simp [files.canonical path real resolved]

theorem Twin.of_key {left right : Path} (same : files.key left = files.key right) :
    Twin files (files.key left) right := by
  cases resolved : files.canonicalize right with
  | none =>
    have unresolved : files.key right = right := by simp [Files.key, resolved]
    rw [same, unresolved]
    exact .refl files right
  | some real =>
    have spelled : files.key right = real := by simp [Files.key, resolved]
    rw [same, spelled]
    exact .of_canonical (files.canonical right real resolved) resolved

def workingData (files : Files) (workDir : WorkDir) (root : Path) : Path := labLocalDir files workDir (files.key root)

/-- The working data is not relocated, or of the roots of each lab, registered or given by git, the first one ends in
the name that the lab's daemon relocated it under. -/
def NamedAlike (files : Files) (labs : Labs) (workDir : WorkDir) : Prop :=
  workDir.base = none ∨ ∀ scan ∈ labs.candidates,
    labs.candidates.find? (fun other => files.key other.root = files.key scan.root) = some scan →
      (files.key scan.root).fileName = scan.root.fileName

/-- A qcow2 in the working data of a registered lab or of its worktree family. -/
def LabFile (files : Files) (labs : Labs) (workDir : WorkDir) (path : Path) : Prop :=
  ∃ scan ∈ labs.candidates, ∃ disk ∈ labDisks files (workingData files workDir scan.root), disk.path = path

section

variable (alike : NamedAlike files labs workDir)
include alike

theorem workingData_twin
    {root : Path} {scan : ScanRoot} (scanned : scan ∈ scanRoots files labs) (same : files.key root = files.key scan.root) :
    Twin files (workingData files workDir root) (labLocalDir files workDir scan.root) := by
  cases moved : workDir.base with
  | none =>
    simp only [workingData, labLocalDir, moved]
    exact (Twin.of_key same).below _
  | some base =>
    have names : (files.key scan.root).fileName = scan.root.fileName := by
      rcases alike with unmoved | names
      · rw [moved] at unmoved
        cases unmoved
      · have first := (first_of_scanOnce scanned).2
        exact names scan (mem_of_find?_eq_some first) first
    simp only [workingData, labLocalDir, moved, Files.key_key, same, names]
    exact .refl files _

theorem LabFile.scanned {path : Path} (inside : LabFile files labs workDir path) :
    ∃ entry ∈ scannedDisks files labs workDir, imagesBehind files entry.2.path = imagesBehind files path := by
  obtain ⟨scan, member, disk, present, rfl⟩ := inside
  obtain ⟨other, scanned, same⟩ := @scanOnce_covers files _ [] _ member (by simp)
  have twin := workingData_twin alike scanned same.symm
  obtain ⟨found, listed, behind⟩ := twin.labDisks present
  refine ⟨(other.label, found), ?_, behind⟩
  exact mem_flatMap.mpr ⟨other, scanned, mem_map.mpr ⟨found, listed, rfl⟩⟩

theorem ChainFrom.in_use (chain : ChainFrom files (LabFile files labs workDir) disk images)
    (acyclic : Acyclic files disk images) (member : image ∈ images) :
    image ∈ (clonesByBacking files labs workDir).map Prod.fst := by
  obtain ⟨start, inside, behind⟩ := chain.found acyclic image member
  obtain ⟨entry, scanned, same⟩ := inside.scanned alike
  exact mem_clonesByBacking scanned (same ▸ behind)

end

/-! ### What an unforced removal keeps -/

theorem namedOnce_ne_nil {names : List String} (some : names ≠ []) : namedOnce names [] ≠ [] := by
  cases names with
  | nil => exact absurd rfl some
  | cons who rest => simp [namedOnce]

theorem backedClonesReason_isSome {clones : List (Path × String)} {doomed : List Path}
    (listed : disk ∈ doomed) (used : files.key disk ∈ clones.map Prod.fst) :
    ∃ reason, backedClonesReason files clones doomed = some reason := by
  obtain ⟨clone, member, leans⟩ := mem_map.mp used
  have kept : clone ∈ clones.filter fun clone => decide (clone.1 ∈ doomed.map files.key) := by
    refine List.mem_filter.mpr ⟨member, ?_⟩
    rw [decide_eq_true_eq, leans]
    exact mem_map_of_mem listed
  have users : (clones.filter fun clone => decide (clone.1 ∈ doomed.map files.key)).map Prod.snd ≠ [] := by
    intro none
    rw [map_eq_nil_iff.mp none] at kept
    cases kept
  have named := namedOnce_ne_nil users
  unfold backedClonesReason
  dsimp only
  split
  · next empty => exact absurd empty named
  · exact ⟨_, rfl⟩
  · exact ⟨_, rfl⟩

theorem remove_refused {inUse : Option String} {world : World}
    (used : ∀ dir record, world.store.get key version = some dir → readMeta dir = .ok record →
    ∃ reason, inUse = some reason) : Ends (Template.remove key version false inUse) world (fun _ _ => False)
      fun _ after => after.store = world.store := by
  refine .bind (call_ends world) fun _ middle same => look_bind_ends ?_
  rw [same]
  split
  · exact .throw same
  rename_i dir present
  refine .bind ?_ fun _ _ impossible => False.elim impossible
  cases read : readMeta dir with
  | error error => exact .throw same
  | ok record =>
    obtain ⟨reason, known⟩ := used dir record present read
    rw [known]
    exact .throw same

theorem variantRefusal_isSome (key : Key) (version variant : Name) (found : TemplateMeta) (reason : String) :
    ∃ message, variantRefusal key version variant found false (some reason) = some message := by
  unfold variantRefusal
  dsimp only
  split_ifs
  all_goals first
    | contradiction
    | exact ⟨_, rfl⟩

theorem removeVariant_refused (key : Key) (version variant : Name) (reason : String) (world : World) :
    ∃ stop, Template.removeVariant key version variant false (some reason) world =
      .error stop (finalState ((do call; installedLocked key version) world)) := by
  simp only [Template.removeVariant, Bind.bind, EStateM.bind]
  cases call world with
  | error stop after => exact ⟨stop, rfl⟩
  | ok value middle =>
    dsimp only
    cases installedLocked key version middle with
    | error stop after => exact ⟨stop, rfl⟩
    | ok found after =>
      dsimp only
      cases found with
      | none => exact ⟨_, rfl⟩
      | some found =>
        obtain ⟨message, refused⟩ := variantRefusal_isSome key version variant found.2 reason
        dsimp only
        rw [refused]
        exact ⟨_, rfl⟩

theorem remove_within_version (key : Key) (version : Name) (force : Bool) (inUse : Option String) :
    Within key [version] (Template.remove key version force inUse) := by
  refine .bind .call fun _ => .look fun found => ?_
  split
  · exact .throw _
  refine .bind ?_ fun _ => .bind (.removeDirAll (by simp)) fun _ =>
    .bind (.bestEffort .call) fun _ => .bestEffort .call
  split
  · split
    · exact .ite (.pure ()) (.throw _)
    · exact .pure ()
  · exact .ite (.pure ()) (.throw _)

theorem removeEach_leaves {versions : List (Key × Name)} (spared : (key, version) ∉ versions) :
    Leaves (fun world : World => world.store.get key version) (removeEach versions) := by
  induction versions with
  | nil => exact .pure ()
  | cons first rest ih =>
    refine .bind ?_ fun _ => ih fun member => spared (mem_cons_of_mem first member)
    intro world
    have other : ¬(key = first.1 ∧ version ∈ [first.2]) := by
      rintro ⟨rfl, same⟩
      rw [mem_singleton.mp same] at spared
      exact spared mem_cons_self
    have within := remove_within_version first.1 first.2 true none world
    unfold Ends at within
    cases ran : Template.remove first.1 first.2 true none world with
    | ok value after | error stop after =>
      rw [ran] at within
      exact within key version other

section

variable {store : Path}
  (used : files.key (baseDisk store key version) ∈ (clonesByBacking files labs workDir).map Prod.fst)
include used

theorem prune_spares (candidates : List TemplateMeta) (inUse : List Path)
    (asked : inUse = if false || candidates.isEmpty then [] else (clonesByBacking files labs workDir).map Prod.fst) :
    (key, version) ∉ (candidates.filter fun record => !held files store inUse record).map
      fun record => (keyOf record, record.version) := by
  intro member
  obtain ⟨record, kept, named⟩ := mem_map.mp member
  obtain ⟨candidate, free⟩ := List.mem_filter.mp kept
  obtain ⟨rfl, rfl⟩ := Prod.mk.inj named
  have some : candidates.isEmpty = false := by
    cases candidates with
    | nil => cases candidate
    | cons first rest => rfl
  rw [some] at asked
  have busy : held files store inUse record = true := by
    refine any_eq_true.mpr ⟨baseDisk store (keyOf record) record.version, mem_cons_self, ?_⟩
    rw [decide_eq_true_eq, asked]
    exact used
  rw [busy] at free
  cases free

theorem prune_keeps (templates : List TemplateMeta) (filter : Option Name) (keep : Nat) (apply : Bool) :
    Leaves (fun world : World => world.store.get key version)
      (prune files labs workDir store templates filter keep apply false) := by
  unfold prune
  refine .ite (.throw _) ?_
  dsimp only
  refine .ite (.pure _) ?_
  exact .bind (removeEach_leaves (prune_spares used _ _ rfl)) fun _ => .pure _

end

/-- A disk of a version: its base or the overlay of one of its variants. -/
def StoreDisk (store : Path) (key : Key) (version : Name) (disk : Path) : Prop :=
  disk = baseDisk store key version ∨ ∃ variant, disk = variantDisk store key version variant

/-- A version of which a disk is in one of the labs' chains is neither removed nor pruned without force, and a variant
whose overlay is in one is not removed. `toBase` says that a chain which comes to a variant goes on to its base. -/
theorem disks_in_chains_are_kept {files : Files} {labs : Labs} {workDir : WorkDir}
    (alike : NamedAlike files labs workDir) {disk : Path} {images : List Path}
    (chain : ChainFrom files (LabFile files labs workDir) disk images) (acyclic : Acyclic files disk images)
    (store : Path) (key : Key) (version : Name)
    (toBase : ∀ variant, files.key (variantDisk store key version variant) ∈ images →
      files.key (baseDisk store key version) ∈ images) :
    (∀ doomed, StoreDisk store key version doomed → files.key doomed ∈ images →
      (∀ world, ∃ stop answers, remove files labs workDir store key (some version) none false world =
        .error stop ⟨world.store, answers⟩) ∧
      ∀ templates filter keep apply world,
        (finalState (prune files labs workDir store templates filter keep apply false world)).store.get key version =
          world.store.get key version) ∧
    ∀ variant, files.key (variantDisk store key version variant) ∈ images → ∀ world, ∃ stop,
      remove files labs workDir store key (some version) (some variant) false world =
        .error stop (finalState ((do call; installedLocked key version) world)) := by
  constructor
  · intro doomed kind member
    have base : files.key (baseDisk store key version) ∈ images := by
      rcases kind with rfl | ⟨variant, rfl⟩
      · exact member
      · exact toBase variant member
    have used := chain.in_use alike acyclic base
    refine ⟨fun world => ?_, fun templates filter keep apply => prune_keeps used templates filter keep apply⟩
    have refused : Ends (Template.remove key version false
        (versionInUse files (clonesByBacking files labs workDir) store key version world)) world (fun _ _ => False)
        fun _ after => after.store = world.store := by
      refine remove_refused fun dir record present read => ?_
      simp only [versionInUse, present, read]
      exact backedClonesReason_isSome mem_cons_self used
    unfold Ends at refused
    simp only [remove, Bool.false_eq_true, if_false]
    split at refused
    · exact False.elim refused
    · next stop after ran => exact ⟨stop, after.answers, by rw [ran, ← refused]⟩
  intro variant member world
  have used := chain.in_use alike acyclic member
  obtain ⟨reason, known⟩ := backedClonesReason_isSome (mem_singleton_self _) used
  simp only [remove, Bool.false_eq_true, if_false]
  rw [known]
  exact removeVariant_refused key version variant reason world

/-! ### A host with one symbolic link -/

def resolveLink (path : Path) : Path :=
  if path.absolute ∧ path.parts.head? = some "wt".toList then ⟨true, "wt2".toList :: path.parts.tail⟩ else path

theorem resolveLink_idem (path : Path) : resolveLink (resolveLink path) = resolveLink path := by
  unfold resolveLink
  split
  · simp
  · rfl

theorem resolveLink_below {path : Path} (named : path.parts ≠ []) (parts : List Name) :
    resolveLink (path.below parts) = (resolveLink path).below parts := by
  obtain ⟨absolute, names⟩ := path
  cases names with
  | nil => exact absurd rfl named
  | cons first rest =>
    by_cases linked : absolute = true ∧ first = "wt".toList
    · simp [resolveLink, Path.below, linked]
    simp only [resolveLink, Path.below, cons_append, head?_cons, Option.some.injEq]
    rw [if_neg linked, if_neg linked]
    rfl

theorem resolveLink_shared {left right : Path} (same : resolveLink left = resolveLink right) (parts : List Name) :
    resolveLink (left.below parts) = resolveLink (right.below parts) := by
  have empty : ∀ path : Path, path.parts = [] → resolveLink path = path := by
    intro path unnamed
    simp [resolveLink, unnamed]
  have unnamed : ∀ path : Path, (resolveLink path).parts = [] ↔ path.parts = [] := by
    intro path
    unfold resolveLink
    split
    · next linked =>
      constructor
      · intro none
        cases none
      intro none
      rw [none] at linked
      cases linked.2
    · rfl
  by_cases nameless : left.parts = []
  · have also : right.parts = [] := (unnamed right).mp (same ▸ (unnamed left).mpr nameless)
    rw [empty left nameless, empty right also] at same
    rw [same]
  · have also : right.parts ≠ [] := fun none => nameless ((unnamed left).mp (same ▸ (unnamed right).mpr none))
    rw [resolveLink_below nameless, resolveLink_below also, same]

/-- A file system that holds the given images and the directories above them. -/
def linkedHost (images : List (List Name × Option Path)) : Files where
  canonicalize path := some (resolveLink path)
  readDir path :=
    let dir := (resolveLink path).parts
    (images.filterMap fun image => if dir.isPrefixOf image.1 then (image.1.drop dir.length).head? else none).dedup
  isDir path := images.any fun image =>
    (resolveLink path).parts.isPrefixOf image.1 && decide ((resolveLink path).parts.length < image.1.length)
  isFile path := images.any fun image => image.1 = (resolveLink path).parts
  fileSize _ := 0
  backingFile path := (images.find? fun image => image.1 = (resolveLink path).parts).bind Prod.snd
  canonical path real resolved := by
    cases resolved
    rw [resolveLink_idem]
  shared left right real first second parts := by
    have same := resolveLink_shared (Option.some.inj (first.trans second.symm)) parts
    simp only [same, and_self]

def rootPath (parts : List String) : Path := ⟨true, parts.map String.toList⟩

def exampleKey : Key := ⟨"x86_64".toList, "debian".toList⟩

def exampleStore : List String := ["store", "x86_64", "debian", "1"]

def exampleLabs : Labs where
  registered := [("demo", rootPath ["main"])]
  mainOf _ := none
  worktreesOf main := if main = rootPath ["main"] then [rootPath ["wt"]] else []

def exampleWorld : World where
  store := emptyStore.put exampleKey "1".toList
    ⟨some ⟨"debian".toList, "x86_64".toList, "1".toList, none, false, false, []⟩, some "d".toList, false, []⟩
  answers := []

def relocated : WorkDir := ⟨some (rootPath ["work"]), fun path => path.parts.flatten⟩

/-- The labs with the worktree registered too, under its canonical path. -/
def registeredLabs : Labs := { exampleLabs with registered := exampleLabs.registered ++ [("tree", rootPath ["wt2"])] }

/-- A disk of the worktree, on a frozen one, in the working data that its daemon moved to `/work`. -/
def frozenImages : List (List Name × Option Path) :=
  let file := fun parts : List String => parts.map String.toList
  [(file ["work", "wt2-wt2", "vms", "web", "disk0.qcow2"],
      some (rootPath ["work", "wt2-wt2", "freeze", "1", "web", "disk0.qcow2"])),
    (file ["work", "wt2-wt2", "freeze", "1", "web", "disk0.qcow2"],
      some (rootPath (exampleStore ++ ["variants", "std", "disk.qcow2"]))),
    (file (exampleStore ++ ["variants", "std", "disk.qcow2"]), some (rootPath (exampleStore ++ ["disk.qcow2"]))),
    (file (exampleStore ++ ["disk.qcow2"]), none)]

theorem disks_in_chains_are_kept_frozen : let files := linkedHost frozenImages
    let store := rootPath ["store"]
    let images := [rootPath ["work", "wt2-wt2", "freeze", "1", "web", "disk0.qcow2"],
      variantDisk store exampleKey "1".toList "std".toList, baseDisk store exampleKey "1".toList]
    NamedAlike files registeredLabs relocated ∧
      Acyclic files (rootPath ["work", "wt2-wt2", "vms", "web", "disk0.qcow2"]) images ∧
      ∃ stop answers, remove files registeredLabs relocated store exampleKey (some "1".toList) none false
        exampleWorld = .error stop ⟨exampleWorld.store, answers⟩ := by
  intro files store images
  have acyclic : Acyclic files (rootPath ["work", "wt2-wt2", "vms", "web", "disk0.qcow2"]) images := by
    unfold Acyclic
    decide +kernel
  have alike : NamedAlike files registeredLabs relocated := .inr (by decide +kernel)
  refine ⟨alike, acyclic, ?_⟩
  have own : LabFile files registeredLabs relocated (rootPath ["work", "wt2-wt2", "vms", "web", "disk0.qcow2"]) := by
    refine ⟨⟨rootPath ["wt2"], .registered "tree"⟩, by decide +kernel, ?_⟩
    exact ⟨⟨rootPath ["work", "wt2-wt2", "vms", "web", "disk0.qcow2"], "web".toList, none⟩, by decide +kernel, rfl⟩
  have frozen : LabFile files registeredLabs relocated
      (rootPath ["work", "wt2-wt2", "freeze", "1", "web", "disk0.qcow2"]) := by
    refine ⟨⟨rootPath ["wt2"], .registered "tree"⟩, by decide +kernel, ?_⟩
    exact ⟨⟨rootPath ["work", "wt2-wt2", "freeze", "1", "web", "disk0.qcow2"], "web".toList, some 1⟩,
      by decide +kernel, rfl⟩
  have chain : ChainFrom files (LabFile files registeredLabs relocated)
      (rootPath ["work", "wt2-wt2", "vms", "web", "disk0.qcow2"]) images := by
    refine .frozen own (by decide +kernel) ?_ (.store frozen ⟨?_, ?_, trivial⟩ (by decide))
    all_goals decide +kernel
  have kept := disks_in_chains_are_kept alike chain acyclic store exampleKey "1".toList fun _ _ => by decide +kernel
  exact (kept.1 (baseDisk store exampleKey "1".toList) (.inl rfl) (by decide +kernel)).1 exampleWorld

/-- The worktree's only disk, in the working data that its daemon moved to `/work`. -/
def relocatedImages : List (List Name × Option Path) :=
  [(["work", "wt2-wt2", "vms", "web", "disk0.qcow2"].map String.toList, some (rootPath (exampleStore ++ ["disk.qcow2"]))),
    ((exampleStore ++ ["disk.qcow2"]).map String.toList, none)]

theorem relocated_worktree_is_missed : let files := linkedHost relocatedImages
    let disk := rootPath ["work", "wt2-wt2", "vms", "web", "disk0.qcow2"]
    let base := baseDisk (rootPath ["store"]) exampleKey "1".toList
    ChainFrom files (LabFile files exampleLabs relocated) disk [base] ∧ Acyclic files disk [base] ∧
      files.key base = base ∧
      (match remove files exampleLabs relocated (rootPath ["store"]) exampleKey (some "1".toList) none false
          exampleWorld with
        | .ok _ after => (after.store.get exampleKey "1".toList).isNone
        | .error _ _ => false) = true := by
  refine ⟨.store ?_ ⟨by decide +kernel, trivial⟩ (by decide), by unfold Acyclic; decide +kernel, by decide +kernel,
    by decide +kernel⟩
  refine ⟨⟨rootPath ["wt"], .unregistered (rootPath ["wt"])⟩, by decide +kernel, ?_⟩
  exact ⟨⟨rootPath ["work", "wt2-wt2", "vms", "web", "disk0.qcow2"], "web".toList, none⟩, by decide +kernel, rfl⟩

end Vmlab.Supervisor
