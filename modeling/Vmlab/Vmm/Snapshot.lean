import Vmlab.Library.Bytes
import Vmlab.Library.Program

/-!
# Online snapshots

The machine's state is streamed into the vmstate area of one disk: a header, keyed sections and the guest's RAM, with
runs of zero pages as counts (`snapshot/format.rs`). Every writable disk takes a snapshot under one name
(`vmlab-hv-vmm/src/snapshot.rs`). Images are seen through the `DiskImage` trait; what the host answers to the file
operations below an image is part of the image.
-/

namespace Vmlab.Vmm

open Library List

def toLittleEndian (width value : Nat) : List UInt8 := (toBigEndian width value).reverse

def magic : Nat := 0x564C4856

def deviceStateMajorVersion : Nat := 1

def deviceStateMinorVersion : Nat := 0

def pageSize : Nat := 4096

def maxDataPages : Nat := 256

abbrev Section := String × List UInt8

def utf8 (text : String) : List UInt8 := text.toUTF8.data.toList

def pushBytes (bytes : List UInt8) : List UInt8 := toLittleEndian 2 bytes.length ++ bytes

def encodeSection (keyed : Section) : List UInt8 :=
  pushBytes (utf8 keyed.1) ++ toLittleEndian 8 keyed.2.length ++ keyed.2

def encodeHeaderSections (runState : UInt8) (hvVersion : String) (digest : List UInt8)
    (sections : List Section) : List UInt8 :=
  toLittleEndian 4 magic ++ toLittleEndian 2 deviceStateMajorVersion ++
    toLittleEndian 2 deviceStateMinorVersion ++ [runState] ++ pushBytes (utf8 hvVersion) ++
    pushBytes digest ++ toLittleEndian 4 sections.length ++ sections.flatMap encodeSection

structure RamEncoder where
  zeroPages : Nat := 0
  data : List UInt8 := []

namespace RamEncoder

variable (encoder : RamEncoder)

def flushZero : RamEncoder × List UInt8 :=
  if 0 < encoder.zeroPages then
    ({ encoder with zeroPages := 0 }, 0 :: toLittleEndian 8 encoder.zeroPages)
  else (encoder, [])

def flushData : RamEncoder × List UInt8 :=
  let pages := encoder.data.length / pageSize
  ({ encoder with data := [] }, if 0 < pages then 1 :: toLittleEndian 8 pages ++ encoder.data else [])

def page (bytes : List UInt8) : RamEncoder × List UInt8 :=
  if bytes.all (· = 0) then
    let (encoder, out) := encoder.flushData
    ({ encoder with zeroPages := encoder.zeroPages + 1 }, out)
  else
    let (encoder, out) := encoder.flushZero
    let encoder := { encoder with data := encoder.data ++ bytes }
    if maxDataPages * pageSize ≤ encoder.data.length then
      let (encoder, rest) := encoder.flushData
      (encoder, out ++ rest)
    else (encoder, out)

def finishRegion : RamEncoder × List UInt8 :=
  let (encoder, zeros) := encoder.flushZero
  let (encoder, rest) := encoder.flushData
  (encoder, zeros ++ rest)

end RamEncoder

inductive DiskError where
  | io (message : String)
  | format (kind reason : String)
  | unsupported (reason : String)
  | snapshotNotFound (name : String)
  | readOnly

def DiskError.message : DiskError → String
  | .io message => "io: " ++ message
  | .format kind reason => "not a " ++ kind ++ " image: " ++ reason
  | .unsupported reason => "unsupported: " ++ reason
  | .snapshotNotFound name => "snapshot not found: " ++ name
  | .readOnly => "image is read-only"

inductive SnapshotError where
  | unsupported (message : String)
  | notFound (message : String)
  | incompatible (message : String)
  | internal (message : String)
  deriving DecidableEq

def SnapshotError.message : SnapshotError → String
  | .unsupported message => message
  | .notFound message => message
  | .incompatible message => message
  | .internal message => message

structure SnapshotInfo where
  id : String
  name : String
  vmStateSize : Nat
  vmClockNsec : Nat

inductive Outcome where
  | done
  | early (error : DiskError)
  | late (error : DiskError)

structure Qcow2 where
  readOnly : Bool
  entries : List SnapshotInfo
  vmstate : List UInt8
  unreadable : Option DiskError
  writes : List (Option DiskError)
  create : Outcome

inductive Image where
  | raw
  | qcow2 (disk : Qcow2)

structure DiskNode where
  id : String
  writable : Bool
  vmstate : Bool
  image : Image

inductive RunState where
  | paused
  | running
  | suspended
  | shuttingDown
  deriving DecidableEq

def RunState.runCode : RunState → UInt8
  | .running => 1
  | .suspended => 2
  | .paused => 0
  | .shuttingDown => 0

structure GuestRam where
  regions : List (Nat × Nat)
  readSlice : Nat → Except String (List UInt8)

structure SnapshotRegistry where
  digest : List UInt8
  disks : List DiskNode
  nodes : List (Except String (List Section))

structure Machine where
  vfio : Bool
  hostUsb : Bool
  acceleratedGpu : Bool
  registry : Option SnapshotRegistry
  state : RunState
  quiesce : Except String Unit
  kernelState : Except SnapshotError (List Section)
  ram : Option GuestRam
  version : String

def Machine.disks (machine : Machine) : List DiskNode :=
  match machine.registry with
  | none => []
  | some registry => registry.disks

def Machine.withDisks (machine : Machine) (disks : List DiskNode) : Machine :=
  { machine with registry := machine.registry.map fun registry => { registry with disks := disks } }

def parseU64 (text : String) : Option Nat :=
  let digits := if text.toList.head? = some '+' then text.toList.tail else text.toList
  if digits ≠ [] ∧ digits.all (·.isDigit) then
    let value := digits.foldl (fun value digit => value * 10 + (digit.toNat - 48)) 0
    if value < 2 ^ 64 then some value else none
  else none

def nextSnapshotId (entries : List SnapshotInfo) : String :=
  toString (((entries.filterMap fun entry => parseU64 entry.id).foldl max 0 + 1) % 2 ^ 64)

section

-- A text as the host's debug format prints it.
variable (debug : String → String)

def SnapshotError.fromDisk (op disk : String) : DiskError → SnapshotError
  | .snapshotNotFound name => .notFound ("disk `" ++ disk ++ "` has no snapshot " ++ debug name)
  | .unsupported reason => .unsupported ("disk `" ++ disk ++ "`: " ++ reason)
  | other => .internal (op ++ " on disk `" ++ disk ++ "`: " ++ other.message)

def Qcow2.snapshotCreate (disk : Qcow2) (name : String) (vmStateSize vmClockNsec : Nat) :
    Except DiskError Unit × Qcow2 :=
  if disk.readOnly then (.error .readOnly, disk)
  else if name.utf8ByteSize = 0 ∨ 1023 < name.utf8ByteSize then
    (.error (.unsupported "snapshot name must be 1..=1023 bytes"), disk)
  else
    match disk.unreadable with
    | some error => (.error error, disk)
    | none =>
      if disk.entries.any fun entry => entry.name = name then
        (.error (.unsupported ("snapshot " ++ debug name ++ " already exists")), disk)
      else
        let entry : SnapshotInfo := { id := nextSnapshotId disk.entries, name, vmStateSize, vmClockNsec }
        match disk.create with
        | .early error => (.error error, disk)
        | .late error => (.error error, { disk with entries := disk.entries ++ [entry] })
        | .done => (.ok (), { disk with entries := disk.entries ++ [entry] })

def Qcow2.writeVmstate (disk : Qcow2) (offset : Nat) (bytes : List UInt8) : Except DiskError Unit × Qcow2 :=
  if disk.readOnly then (.error .readOnly, disk)
  else
    match disk.writes with
    | some error :: later => (.error error, { disk with writes := later })
    | _ =>
      let area := disk.vmstate ++ List.replicate (offset - disk.vmstate.length) 0
      (.ok (), { disk with vmstate := overwrite area offset bytes, writes := disk.writes.tail })

namespace Image

def snapshotCreate (name : String) (vmStateSize vmClockNsec : Nat) : Image → Except DiskError Unit × Image
  | .raw => (.error (.unsupported "raw images have no snapshots"), .raw)
  | .qcow2 disk =>
    let (result, disk) := disk.snapshotCreate debug name vmStateSize vmClockNsec
    (result, .qcow2 disk)

def writeVmstate (offset : Nat) (bytes : List UInt8) : Image → Except DiskError Unit × Image
  | .raw => (.error (.unsupported "raw images have no vmstate area"), .raw)
  | .qcow2 disk =>
    let (result, disk) := disk.writeVmstate offset bytes
    (result, .qcow2 disk)

end Image

def DiskNode.marked (disk : DiskNode) : Bool := disk.vmstate && disk.writable

def vmstateDisk (registry : SnapshotRegistry) : Except SnapshotError DiskNode :=
  match registry.disks.filter DiskNode.marked with
  | [disk] => .ok disk
  | [] =>
    .error (.unsupported
      "online snapshots need one writable disk marked vmstate: true; this machine has none")
  | several =>
    .error (.unsupported
      ("online snapshots need one writable disk marked vmstate: true; this machine has " ++ toString several.length))

structure Capture where
  disks : List DiskNode
  offset : Nat
  total : Nat

abbrev CaptureM := EStateM SnapshotError Capture

def writeMarked (offset : Nat) (bytes : List UInt8) : List DiskNode → Except SnapshotError Unit × List DiskNode
  | [] => (.ok (), [])
  | disk :: disks =>
    if disk.marked then
      let (result, image) := disk.image.writeVmstate offset bytes
      (result.mapError (SnapshotError.fromDisk debug "write_vmstate" disk.id), { disk with image } :: disks)
    else
      let (result, disks) := writeMarked offset bytes disks
      (result, disk :: disks)

def write (bytes : List UInt8) : CaptureM Unit := fun capture =>
  match writeMarked debug capture.offset bytes capture.disks with
  | (.error error, disks) => .error error { capture with disks }
  | (.ok (), disks) =>
    .ok () { disks, offset := capture.offset + bytes.length, total := capture.total + bytes.length }

def writeChunk (chunk : List UInt8) : CaptureM Unit := if chunk.isEmpty then pure () else write debug chunk

def streamPages (ram : GuestRam) (base : Nat) : Nat → Nat → RamEncoder → CaptureM RamEncoder
  | 0, _, encoder => pure encoder
  | pages + 1, offset, encoder =>
    match ram.readSlice (base + offset) with
    | .error message => throw (.internal ("reading guest page: " ++ message))
    | .ok bytes => do
        let (encoder, chunk) := encoder.page bytes
        writeChunk debug chunk
        streamPages ram base pages (offset + pageSize) encoder

def hexadecimal (value : Nat) : String := "0x" ++ String.ofList (Nat.toDigits 16 value)

def streamRegions (ram : GuestRam) : List (Nat × Nat) → RamEncoder → CaptureM Unit
  | [], _ => pure ()
  | (base, len) :: regions, encoder =>
    if len % pageSize ≠ 0 then
      throw (.internal ("RAM region " ++ hexadecimal base ++ "+" ++ hexadecimal len ++ " is not page aligned"))
    else do
      let encoder ← streamPages debug ram base (len / pageSize) 0 encoder
      let (encoder, chunk) := encoder.finishRegion
      writeChunk debug chunk
      streamRegions ram regions encoder

def streamRamOut (ram : GuestRam) : CaptureM Unit := do
  write debug (toLittleEndian 4 ram.regions.length ++
    ram.regions.flatMap fun region => toLittleEndian 8 region.1 ++ toLittleEndian 8 region.2)
  streamRegions debug ram ram.regions {}

def saveNodes : List (Except String (List Section)) → Except SnapshotError (List Section)
  | [] => .ok []
  | .error message :: _ => .error (.internal message)
  | .ok sections :: nodes =>
    match saveNodes nodes with
    | .error error => .error error
    | .ok later => .ok (sections ++ later)

def streamState (machine : Machine) (registry : SnapshotRegistry) (was : RunState) : CaptureM Unit := do
  match saveNodes registry.nodes with
  | .error error => throw error
  | .ok devices =>
    match machine.kernelState with
    | .error error => throw error
    | .ok kernel => do
        write debug (encodeHeaderSections was.runCode machine.version registry.digest (devices ++ kernel))
        match machine.ram with
        | none => throw (.internal "machine has no RAM")
        | some ram => streamRamOut debug ram

def createSnapshots (name : String) (total : Nat) : List DiskNode → Except SnapshotError Unit × List DiskNode
  | [] => (.ok (), [])
  | disk :: disks =>
    if disk.writable then
      match disk.image.snapshotCreate debug name (if disk.vmstate then total else 0) 0 with
      | (.error error, image) =>
        (.error (SnapshotError.fromDisk debug "snapshot_create" disk.id error), { disk with image } :: disks)
      | (.ok (), image) =>
        let (result, disks) := createSnapshots name total disks
        (result, { disk with image } :: disks)
    else
      let (result, disks) := createSnapshots name total disks
      (result, disk :: disks)

variable (machine : Machine)

def captureAndWrite (registry : SnapshotRegistry) (name : String) (was : RunState) :
    Except SnapshotError Unit × List DiskNode :=
  match streamState debug machine registry was { disks := registry.disks, offset := 0, total := 0 } with
  | .error error capture => (.error error, capture.disks)
  | .ok () capture => createSnapshots debug name capture.total capture.disks

def refusal : Except SnapshotError SnapshotRegistry :=
  if machine.vfio then .error (.unsupported "online snapshots are unavailable with assigned VFIO devices")
  else if machine.hostUsb then
    .error (.unsupported
      "online snapshots are refused while host USB devices are attached (D9): detach them              first")
  else if machine.acceleratedGpu then
    .error (.unsupported "online snapshots are unavailable with an accelerated GPU")
  else
    match machine.registry with
    | none => .error (.internal "machine has no snapshot registry")
    | some registry =>
      match vmstateDisk registry with
      | .error error => .error error
      | .ok _ => .ok registry

def stopForSnapshot : Except String RunState × Machine :=
  match machine.state with
  | .shuttingDown => (.error "the machine is shutting down", machine)
  | was =>
    let stopped := if was = .running then { machine with state := .paused } else machine
    match machine.quiesce with
    | .error message => (.error ("pausing for a snapshot: " ++ message), stopped)
    | .ok () => (.ok was, stopped)

def finishSnapshot (was : RunState) : Machine :=
  match was, machine.state with
  | .running, .paused => { machine with state := .running }
  | .suspended, .paused => { machine with state := .suspended }
  | _, _ => machine

def save (name : String) : Except SnapshotError Unit × Machine :=
  match refusal machine with
  | .error error => (.error error, machine)
  | .ok registry =>
    match stopForSnapshot machine with
    | (.error message, stopped) => (.error (.internal message), stopped)
    | (.ok was, stopped) =>
      let (captured, disks) := captureAndWrite debug machine registry name was
      (captured, finishSnapshot (stopped.withDisks disks) was)

end

/-! ### When a save is all or nothing -/

variable {disk : DiskNode} {disks : List DiskNode}

def Image.entries : Image → List SnapshotInfo
  | .raw => []
  | .qcow2 disk => disk.entries

def Image.names (image : Image) : List String := image.entries.map (·.name)

def Gains (name : String) (before after : Image) : Prop := name ∉ before.names ∧ name ∈ after.names

/-- A failed save adds the name nowhere, and the writable disks gain it together. -/
structure AllOrNothing (name : String) (before after : List DiskNode) (result : Except SnapshotError Unit) :
    Prop where
  clean : result ≠ .ok () → List.Forall₂ (fun old new => ¬Gains name old.image new.image) before after
  together :
    List.Forall₂ (fun old new => old.writable = true → Gains name old.image new.image) before after ∨
      List.Forall₂ (fun old new => old.writable = true → ¬Gains name old.image new.image) before after

section

variable (debug : String → String) (name : String)

def Takes (disk : DiskNode) : Prop := (disk.image.snapshotCreate debug name 0 0).1 = .ok ()

def Refuses (disk : DiskNode) : Prop :=
  ¬Takes debug name disk ∧ ¬Gains name disk.image (disk.image.snapshotCreate debug name 0 0).2

/-- Every writable disk takes the snapshot, or the first writable disk refuses it. -/
def Agreeing (disks : List DiskNode) : Prop :=
  (∀ disk ∈ disks, disk.writable = true → Takes debug name disk) ∨
    ∃ first, disks.find? (·.writable) = some first ∧ Refuses debug name first

def ReachesCreate (machine : Machine) : Prop :=
  ∃ registry was stopped capture, refusal machine = .ok registry ∧
    stopForSnapshot machine = (.ok was, stopped) ∧
    streamState debug machine registry was { disks := registry.disks, offset := 0, total := 0 } = .ok () capture

end

/-! ### What the stream leaves alone -/

def Image.face : Image → Image
  | .raw => .raw
  | .qcow2 disk => .qcow2 { disk with vmstate := [], writes := [] }

def DiskNode.face (disk : DiskNode) : DiskNode := { disk with image := disk.image.face }

def Capture.faces (capture : Capture) : List DiskNode := capture.disks.map DiskNode.face

@[simp] theorem Image.names_face (image : Image) : image.face.names = image.names := by
  cases image <;> rfl

variable {debug : String → String} {name : String}

theorem Image.face_writeVmstate (image : Image) (offset : Nat) (bytes : List UInt8) :
    (image.writeVmstate offset bytes).2.face = image.face := by
  cases image with
  | raw => rfl
  | qcow2 disk =>
    simp only [Image.writeVmstate, Qcow2.writeVmstate]
    repeat' split
    all_goals rfl

theorem face_writeMarked (offset : Nat) (bytes : List UInt8) (disks : List DiskNode) :
    (writeMarked debug offset bytes disks).2.map DiskNode.face = disks.map DiskNode.face := by
  induction disks with
  | nil => rfl
  | cons disk disks ih =>
    unfold writeMarked
    split
    · simp [DiskNode.face, Image.face_writeVmstate]
    · simp [ih]

theorem write_leaves (bytes : List UInt8) : Leaves Capture.faces (write debug bytes) := by
  intro capture
  have kept := @face_writeMarked debug capture.offset bytes capture.disks
  unfold write
  split
  · next written =>
    rw [written] at kept
    exact kept
  · next written =>
    rw [written] at kept
    exact kept

theorem writeChunk_leaves (chunk : List UInt8) : Leaves Capture.faces (writeChunk debug chunk) :=
  .ite (.pure ()) (write_leaves chunk)

theorem streamPages_leaves (ram : GuestRam) (base pages offset : Nat) (encoder : RamEncoder) :
    Leaves Capture.faces (streamPages debug ram base pages offset encoder) := by
  induction pages generalizing offset encoder with
  | zero => exact .pure encoder
  | succ pages ih =>
    unfold streamPages
    split
    · exact .throw _
    · exact .bind (writeChunk_leaves _) fun _ => ih _ _

theorem streamRegions_leaves (ram : GuestRam) (regions : List (Nat × Nat)) (encoder : RamEncoder) :
    Leaves Capture.faces (streamRegions debug ram regions encoder) := by
  induction regions generalizing encoder with
  | nil => exact .pure ()
  | cons region regions ih =>
    exact .ite (.throw _) (.bind (streamPages_leaves ram _ _ _ _) fun _ => .bind (writeChunk_leaves _) fun _ => ih _)

theorem streamState_leaves (machine : Machine) (registry : SnapshotRegistry) (was : RunState) :
    Leaves Capture.faces (streamState debug machine registry was) := by
  unfold streamState
  split
  · exact .throw _
  split
  · exact .throw _
  refine .bind (write_leaves _) fun _ => ?_
  split
  · exact .throw _
  · exact .bind (write_leaves _) fun _ => streamRegions_leaves _ _ _

/-! ### One create -/

theorem snapshotCreate_cases (image : Image) (size clock : Nat) :
    ((image.snapshotCreate debug name size clock).1 ≠ .ok () ∧
        (image.snapshotCreate debug name size clock).2 = image) ∨
      (name ∉ image.names ∧ (image.snapshotCreate debug name size clock).2.names = image.names ++ [name]) := by
  cases image with
  | raw => exact .inl ⟨nofun, rfl⟩
  | qcow2 disk =>
    simp only [Image.snapshotCreate, Qcow2.snapshotCreate]
    repeat' split
    all_goals simp_all [Image.names, Image.entries]

theorem snapshotCreate_face (image : Image) (size clock : Nat) :
    (image.snapshotCreate debug name size clock).1 = (image.face.snapshotCreate debug name 0 0).1 ∧
      (image.snapshotCreate debug name size clock).2.names = (image.face.snapshotCreate debug name 0 0).2.names := by
  cases image with
  | raw => exact ⟨rfl, rfl⟩
  | qcow2 disk =>
    simp only [Image.snapshotCreate, Image.face, Qcow2.snapshotCreate]
    repeat' split
    all_goals simp_all [Image.names, Image.entries]

theorem takes_iff (size clock : Nat) :
    Takes debug name disk ↔ (disk.image.snapshotCreate debug name size clock).1 = .ok () := by
  unfold Takes
  rw [(snapshotCreate_face disk.image 0 0).1, (snapshotCreate_face disk.image size clock).1]

theorem gains_create_iff {image : Image} (size clock : Nat) :
    Gains name image (image.snapshotCreate debug name 0 0).2 ↔
      Gains name image (image.snapshotCreate debug name size clock).2 := by
  unfold Gains
  rw [(snapshotCreate_face image 0 0).2, (snapshotCreate_face image size clock).2]

theorem takes_face : Takes debug name disk.face ↔ Takes debug name disk := by
  unfold Takes DiskNode.face
  rw [(snapshotCreate_face disk.image 0 0).1]

theorem refuses_face : Refuses debug name disk.face ↔ Refuses debug name disk := by
  unfold Refuses Gains
  rw [takes_face, (snapshotCreate_face disk.image 0 0).2]
  simp [DiskNode.face]

theorem Takes.gains (takes : Takes debug name disk) :
    Gains name disk.image (disk.image.snapshotCreate debug name 0 0).2 := by
  rcases @snapshotCreate_cases debug name disk.image 0 0 with
    ⟨failed, -⟩ | ⟨absent, appended⟩
  · exact absurd takes failed
  · exact ⟨absent, by simp [appended]⟩

theorem not_gains_self (image : Image) : ¬Gains name image image := fun gained => gained.1 gained.2

/-! ### The creates in turn -/

theorem forall₂_not_gains_self (disks : List DiskNode) :
    List.Forall₂ (fun old new => ¬Gains name old.image new.image) disks disks :=
  forall₂_same.mpr fun disk _ => not_gains_self disk.image

variable {before after : List DiskNode} {result : Except SnapshotError Unit}

theorem AllOrNothing.of_clean (clean : List.Forall₂ (fun old new => ¬Gains name old.image new.image) before after) :
    AllOrNothing name before after result := by
  have weaker : ∀ old new : DiskNode, ¬Gains name old.image new.image →
      old.writable = true → ¬Gains name old.image new.image := fun _ _ kept _ => kept
  exact ⟨fun _ => clean, .inr (clean.imp weaker)⟩

section

variable (total : Nat)

theorem createSnapshots_cons (disks : List DiskNode) (writable : disk.writable = true) :
    ∃ image, (Gains name disk.image image ↔ Gains name disk.image (disk.image.snapshotCreate debug name 0 0).2) ∧
      ((Takes debug name disk ∧ createSnapshots debug name total (disk :: disks) =
          ((createSnapshots debug name total disks).1,
            { disk with image } :: (createSnapshots debug name total disks).2)) ∨
        (¬Takes debug name disk ∧ ∃ error, createSnapshots debug name total (disk :: disks) =
          (.error error, { disk with image } :: disks))) := by
  refine ⟨_, (gains_create_iff (if disk.vmstate then total else 0) 0).symm, ?_⟩
  rw [takes_iff (if disk.vmstate then total else 0) 0, createSnapshots, if_pos writable]
  cases created : disk.image.snapshotCreate debug name (if disk.vmstate then total else 0) 0 with
  | mk result image =>
    cases result with
    | ok value => exact .inl ⟨rfl, rfl⟩
    | error error => exact .inr ⟨nofun, _, rfl⟩

theorem createSnapshots_cons_readOnly (disks : List DiskNode) (readOnly : disk.writable ≠ true) :
    createSnapshots debug name total (disk :: disks) =
      ((createSnapshots debug name total disks).1, disk :: (createSnapshots debug name total disks).2) := by
  rw [createSnapshots, if_neg readOnly]

theorem createSnapshots_of_takes
    (takes : ∀ disk ∈ disks, disk.writable = true → Takes debug name disk) :
    (createSnapshots debug name total disks).1 = .ok () ∧
      List.Forall₂ (fun old new => old.writable = true → Gains name old.image new.image) disks
        (createSnapshots debug name total disks).2 := by
  induction disks with
  | nil => exact ⟨rfl, .nil⟩
  | cons disk disks ih =>
    obtain ⟨succeeded, gained⟩ := ih fun other member => takes other (by simp [member])
    by_cases writable : disk.writable = true
    · have accepts := takes disk (by simp) writable
      obtain ⟨image, same, ⟨-, created⟩ | ⟨refused, -⟩⟩ := createSnapshots_cons total disks writable
      · rw [created]
        exact ⟨succeeded, .cons (fun _ => same.mpr accepts.gains) gained⟩
      · exact absurd accepts refused
    · rw [createSnapshots_cons_readOnly total disks writable]
      exact ⟨succeeded, .cons (fun holds => absurd holds writable) gained⟩

theorem createSnapshots_of_refuses {first : DiskNode}
    (found : disks.find? (·.writable) = some first) (refuses : Refuses debug name first) :
    List.Forall₂ (fun old new => ¬Gains name old.image new.image) disks
      (createSnapshots debug name total disks).2 := by
  induction disks with
  | nil => cases found
  | cons disk disks ih =>
    by_cases writable : disk.writable = true
    · rw [find?_cons_of_pos writable] at found
      cases found
      obtain ⟨image, same, ⟨takes, -⟩ | ⟨-, error, created⟩⟩ := createSnapshots_cons total disks writable
      · exact absurd takes refuses.1
      · rw [created]
        exact .cons (fun gained => refuses.2 (same.mp gained)) (forall₂_not_gains_self disks)
    rw [find?_cons_of_neg writable] at found
    rw [createSnapshots_cons_readOnly total disks writable]
    exact .cons (not_gains_self _) (ih found)

end

section

variable {failing : DiskNode} (total : Nat) (member : failing ∈ disks) (writable : failing.writable = true)
include total member writable

theorem createSnapshots_fails (fails : ¬Takes debug name failing) :
    (createSnapshots debug name total disks).1 ≠ .ok () := by
  induction disks with
  | nil => cases member
  | cons disk disks ih =>
    by_cases written : disk.writable = true
    · obtain ⟨image, -, ⟨takes, created⟩ | ⟨-, error, created⟩⟩ := createSnapshots_cons total disks written
      · rw [created]
        rcases mem_cons.mp member with rfl | later
        · exact absurd takes fails
        · exact ih later
      · rw [created]
        exact nofun
    rw [createSnapshots_cons_readOnly total disks written]
    rcases mem_cons.mp member with rfl | later
    · exact absurd writable written
    · exact ih later

theorem refuses_of_createSnapshots (clean : List.Forall₂ (fun old new => ¬Gains name old.image new.image) disks
    (createSnapshots debug name total disks).2) :
    ∃ first, disks.find? (·.writable) = some first ∧ Refuses debug name first := by
  induction disks with
  | nil => cases member
  | cons disk disks ih =>
    by_cases written : disk.writable = true
    · refine ⟨disk, find?_cons_of_pos written, ?_⟩
      obtain ⟨image, same, ⟨takes, created⟩ | ⟨refused, error, created⟩⟩ := createSnapshots_cons total disks written
      · rw [created] at clean
        exact absurd (same.mpr takes.gains) (forall₂_cons.mp clean).1
      · rw [created] at clean
        exact ⟨refused, fun gained => (forall₂_cons.mp clean).1 (same.mpr gained)⟩
    rw [createSnapshots_cons_readOnly total disks written] at clean
    rw [find?_cons_of_neg written]
    rcases mem_cons.mp member with rfl | later
    · exact absurd writable written
    · exact ih later (forall₂_cons.mp clean).2

end

theorem createSnapshots_allOrNothing_iff (total : Nat) (disks : List DiskNode) :
    AllOrNothing name disks (createSnapshots debug name total disks).2
        (createSnapshots debug name total disks).1 ↔ Agreeing debug name disks := by
  constructor
  · intro holds
    by_cases takes : ∀ disk ∈ disks, disk.writable = true → Takes debug name disk
    · exact .inl takes
    push Not at takes
    obtain ⟨failing, member, writable, fails⟩ := takes
    have failed := createSnapshots_fails total member writable fails
    exact .inr (refuses_of_createSnapshots total member writable (holds.clean failed))
  rintro (takes | ⟨first, found, refuses⟩)
  · obtain ⟨succeeded, gained⟩ := createSnapshots_of_takes total takes
    exact ⟨fun failed => absurd succeeded failed, .inl gained⟩
  · have clean := createSnapshots_of_refuses total found refuses
    exact .of_clean clean

/-! ### The whole save -/

theorem agreeing_faces : Agreeing debug name (disks.map DiskNode.face) ↔ Agreeing debug name disks := by
  have sameFlag : ((fun disk : DiskNode => disk.writable) ∘ DiskNode.face) = fun disk => disk.writable := rfl
  have taken : (∀ disk ∈ disks.map DiskNode.face, disk.writable = true → Takes debug name disk) ↔
      ∀ disk ∈ disks, disk.writable = true → Takes debug name disk := by
    simp only [forall_mem_map, takes_face]
    rfl
  have refused : (∃ first, (disks.map DiskNode.face).find? (·.writable) = some first ∧
      Refuses debug name first) ↔ ∃ first, disks.find? (·.writable) = some first ∧ Refuses debug name first := by
    simp only [find?_map, sameFlag, Option.map_eq_some_iff]
    constructor
    · rintro ⟨_, ⟨first, found, rfl⟩, refuses⟩
      exact ⟨first, found, refuses_face.mp refuses⟩
    · rintro ⟨first, found, refuses⟩
      exact ⟨_, ⟨first, found, rfl⟩, refuses_face.mpr refuses⟩
  exact or_congr taken refused

theorem allOrNothing_faces :
    AllOrNothing name (before.map DiskNode.face) after result ↔ AllOrNothing name before after result := by
  have same : ∀ (disk : DiskNode) (image : Image),
      Gains name disk.face.image image ↔ Gains name disk.image image := by
    intro disk image
    simp [Gains, DiskNode.face]
  have writable : ∀ disk : DiskNode, disk.face.writable = disk.writable := fun _ => rfl
  constructor
  · rintro ⟨clean, together⟩
    simp only [forall₂_map_left_iff, same, writable] at clean together
    exact ⟨clean, together⟩
  rintro ⟨clean, together⟩
  constructor
  · simpa only [forall₂_map_left_iff, same, writable] using clean
  · simpa only [forall₂_map_left_iff, same, writable] using together

variable {machine : Machine} {registry : SnapshotRegistry}

theorem Machine.disks_withDisks
    (known : machine.registry = some registry) : (machine.withDisks disks).disks = disks := by
  simp [Machine.disks, Machine.withDisks, known]

theorem finishSnapshot_disks (machine : Machine) (was : RunState) :
    (finishSnapshot machine was).disks = machine.disks := by
  unfold finishSnapshot
  split <;> rfl

theorem stopForSnapshot_registry (machine : Machine) : (stopForSnapshot machine).2.registry = machine.registry := by
  unfold stopForSnapshot
  repeat' split
  all_goals rfl

theorem refusal_registry (allowed : refusal machine = .ok registry) : machine.registry = some registry := by
  unfold refusal at allowed
  repeat' split at allowed
  all_goals cases allowed
  assumption

theorem captureAndWrite_allOrNothing_iff (machine : Machine) (registry : SnapshotRegistry) (was : RunState) :
    AllOrNothing name registry.disks (captureAndWrite debug machine registry name was).2
        (captureAndWrite debug machine registry name was).1 ↔
      (¬∃ capture, streamState debug machine registry was
          { disks := registry.disks, offset := 0, total := 0 } = .ok () capture) ∨
        Agreeing debug name registry.disks := by
  have kept := @streamState_leaves debug machine registry was
    { disks := registry.disks, offset := 0, total := 0 }
  unfold captureAndWrite
  cases streamed : streamState debug machine registry was { disks := registry.disks, offset := 0, total := 0 } with
  | error error capture =>
    rw [streamed] at kept
    have same : capture.disks.map DiskNode.face = registry.disks.map DiskNode.face := kept
    refine iff_of_true ?_ (.inl nofun)
    refine allOrNothing_faces.mp ?_
    rw [← same]
    exact allOrNothing_faces.mpr (.of_clean (forall₂_not_gains_self _))
  | ok value capture =>
    rw [streamed] at kept
    have same : capture.disks.map DiskNode.face = registry.disks.map DiskNode.face := kept
    rw [← allOrNothing_faces, ← agreeing_faces, ← same, allOrNothing_faces, agreeing_faces,
      createSnapshots_allOrNothing_iff]
    simp

/-- A save is all or nothing exactly when it fails before the first snapshot, when
every writable disk takes the snapshot, or when the first writable disk refuses it. -/
theorem save_allOrNothing_iff (debug : String → String) (machine : Machine) (name : String) :
    AllOrNothing name machine.disks (save debug machine name).2.disks (save debug machine name).1 ↔
      ¬ReachesCreate debug machine ∨ Agreeing debug name machine.disks := by
  unfold save
  cases allowed : refusal machine with
  | error error =>
    refine iff_of_true (.of_clean (forall₂_not_gains_self _)) (.inl ?_)
    rintro ⟨registry, was, stopped, capture, accepted, -⟩
    rw [allowed] at accepted
    cases accepted
  | ok registry =>
    have known := refusal_registry allowed
    have disks : machine.disks = registry.disks := by simp [Machine.disks, known]
    have stoppedRegistry := stopForSnapshot_registry machine
    cases stopping : stopForSnapshot machine with
    | mk result stopped =>
      rw [stopping] at stoppedRegistry
      cases result with
      | error message =>
        have same : stopped.disks = machine.disks := by
          simp only [Machine.disks]
          rw [show stopped.registry = machine.registry from stoppedRegistry]
        refine iff_of_true ?_ (.inl ?_)
        · rw [← same]
          exact .of_clean (forall₂_not_gains_self _)
        rintro ⟨registry, was, other, capture, -, halted, -⟩
        rw [stopping] at halted
        cases halted
      | ok was =>
        have reaches : ReachesCreate debug machine ↔ ∃ capture, streamState debug machine registry was
            { disks := registry.disks, offset := 0, total := 0 } = .ok () capture := by
          constructor
          · rintro ⟨registry', was', stopped', capture, accepted, halted, streamed⟩
            rw [allowed] at accepted
            rw [stopping] at halted
            cases accepted
            cases halted
            exact ⟨capture, streamed⟩
          · rintro ⟨capture, streamed⟩
            exact ⟨registry, was, stopped, capture, allowed, stopping, streamed⟩
        have finished : (finishSnapshot (stopped.withDisks
            (captureAndWrite debug machine registry name was).2) was).disks =
              (captureAndWrite debug machine registry name was).2 := by
          rw [finishSnapshot_disks, Machine.disks_withDisks (stoppedRegistry.trans known)]
        rw [reaches, disks, ← captureAndWrite_allOrNothing_iff]
        exact iff_of_eq (congrArg₂ _ finished rfl)

/-- Two disks that can hold snapshots, the second with one called "base" already. -/
def nameTaken : Machine where
  vfio := false
  hostUsb := false
  acceleratedGpu := false
  registry := some
    { digest := List.replicate 32 0
      disks :=
        [{ id := "system", writable := true, vmstate := true
           image := .qcow2 { readOnly := false, entries := [], vmstate := [], unreadable := none, writes := []
                             create := .done } },
         { id := "data", writable := true, vmstate := false
           image := .qcow2 { readOnly := false
                             entries := [{ id := "1", name := "base", vmStateSize := 0, vmClockNsec := 0 }]
                             vmstate := [], unreadable := none, writes := [], create := .done } }]
      nodes := [] }
  state := .running
  quiesce := .ok ()
  kernelState := .ok []
  ram := some { regions := [(0, 4096)], readSlice := fun _ => .ok (List.replicate 4096 0) }
  version := "0.1.0"

/-- The save fails on the second disk and leaves "base" on the first. -/
theorem save_leaves_first_disk :
    ((save id nameTaken "base").1 = .error (.unsupported "disk `data`: snapshot base already exists")) ∧
      ¬AllOrNothing "base" nameTaken.disks (save id nameTaken "base").2.disks (save id nameTaken "base").1 := by
  have failed : (save id nameTaken "base").1 =
      .error (.unsupported "disk `data`: snapshot base already exists") := by decide +kernel
  have gained : (save id nameTaken "base").2.disks.map (·.image.names) = [["base"], ["base"]] := by
    decide +kernel
  refine ⟨failed, fun holds => ?_⟩
  have clean := holds.clean (by rw [failed]; exact nofun)
  cases shape : (save id nameTaken "base").2.disks with
  | nil =>
    rw [shape] at gained
    cases gained
  | cons first others =>
    rw [shape] at clean gained
    have names : first.image.names = ["base"] := (List.cons.inj gained).1
    exact (forall₂_cons.mp clean).1 ⟨by decide +kernel, by simp [names]⟩

end Vmlab.Vmm
