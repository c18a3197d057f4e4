import Vmlab.Disk.Qcow2.Refcount

/-!
# Guest access to a qcow2 image

The open image, its reads and writes, and its snapshot table (`qcow2/mod.rs`,
`qcow2/snapshot.rs`). Guest offsets are 64-bit and their sums wrap where the
source does not check them.
-/

namespace Vmlab.Disk.Qcow2

open Library
open List (replicate range')

structure Image where
  store : Store
  size : Nat
  l1Size : Nat
  l1TableOffset : Nat
  nbSnapshots : Nat
  snapshotsOffset : Nat
  headerCluster : List UInt8
  backing : Option BackingRef
  backingImage : Option BackingImage
  l1 : List Entry
  l1Dirty : Bool

abbrev DiskM := EStateM DiskError Image

instance : MonadLift StoreM DiskM := ⟨zoom Image.store fun image store => { image with store }⟩

def Image.markHeader (image : Image) : Image := { image with store := { image.store with headerDirty := true } }

def Image.setL1 (image : Image) (index : Nat) (entry : Entry) : Image :=
  { image with l1 := image.l1.set index entry, l1Dirty := true }

def wrap (value : Nat) : Nat := value % 2 ^ 64

inductive ReadSource where
  | backing
  | zero
  | file (offset : Nat)
  | compressed (entry : Entry)
  deriving DecidableEq

namespace ReadSource

def fromEntry (entry : Entry) (inCluster : Nat) : ReadSource :=
  if isCompressed entry then .compressed entry
  else if isZero entry then .zero
  else if hostOf entry = 0 then .backing
  else .file (hostOf entry + inCluster)

def adjacent (source : ReadSource) (length : Nat) (next : ReadSource) : Bool :=
  match source, next with
  | .file start, .file next => next = start + length
  | .backing, .backing => true
  | .zero, .zero => true
  | _, _ => false

end ReadSource

variable (geometry : Geometry)

def checkWritable : DiskM Unit := if geometry.readOnly then throw .readOnly else pure ()

def liftResult {α : Type} (result : Except DiskError α) : DiskM α :=
  match result with
  | .ok value => pure value
  | .error error => throw error

def readUnallocated (guestOffset count : Nat) : DiskM (List UInt8) := do
  match (← get).backingImage with
  | none => pure (replicate count 0)
  | some backing =>
    if backing.size ≤ guestOffset then pure (replicate count 0)
    else do
      let take := min count (backing.size - guestOffset)
      let bytes ← liftResult (backing.readAt guestOffset take)
      pure (bytes ++ replicate (count - take) 0)

def readCompressedCluster (entry : Entry) : StoreM (List UInt8) := do
  let (offset, additional) := compressedExtent geometry entry
  let stream ← readFile offset ((offset / 512 + additional + 1) * 512 - offset)
  match geometry.host.inflate stream geometry.clusterSize with
  | some bytes =>
    pure (bytes.take geometry.clusterSize ++ replicate (geometry.clusterSize - bytes.length) 0)
  | none => throw (.format .deflate)

def extendExtent (source : ReadSource) (maxLen : Nat) : List Entry → Nat → Nat
  | [], length => length
  | entry :: entries, length =>
    if length = maxLen then length
    else if source.adjacent length (.fromEntry entry 0) then
      extendExtent source maxLen entries (length + min (maxLen - length) geometry.clusterSize)
    else length

def ReadSource.isCompressed : ReadSource → Bool
  | .compressed _ => true
  | _ => false

def readExtent (offset maxLen : Nat) : DiskM (ReadSource × Nat) := do
  let l2Host := hostOf ((← get).l1.getD (geometry.l1IndexOf offset) 0)
  if l2Host = 0 then pure (.backing, min maxLen (geometry.l2Span - offset % geometry.l2Span))
  else do
    let inCluster := offset % geometry.clusterSize
    let index := geometry.l2IndexOf offset
    let table ← readClusterViaCache geometry l2Host
    let source := ReadSource.fromEntry (wordAt table index) inCluster
    let length := min maxLen (geometry.clusterSize - inCluster)
    if source.isCompressed then pure (source, length)
    else pure (source, extendExtent geometry source maxLen ((bytesToWords table).drop (index + 1)) length)

def readFrom (source : ReadSource) (offset length : Nat) : DiskM (List UInt8) :=
  match source with
  | .backing => readUnallocated offset length
  | .zero => pure (replicate length 0)
  | .file host => readFile host length
  | .compressed entry => do
      let cluster ← readCompressedCluster geometry entry
      pure (window cluster (offset % geometry.clusterSize) length)

def readExtents : Nat → Nat → Nat → DiskM (List UInt8)
  | 0, _, _ => pure []
  | rounds + 1, offset, count =>
    if count = 0 then pure []
    else do
      let (source, length) ← readExtent geometry offset count
      let bytes ← readFrom geometry source offset length
      let rest ← readExtents rounds (wrap (offset + length)) (count - length)
      pure (bytes ++ rest)

def readBytes (offset count : Nat) : DiskM (List UInt8) := readExtents geometry count offset count

def newL2Table (fuel : Nat) (content : List UInt8) : StoreM Nat := do
  let newL2 ← allocCluster geometry fuel
  writeFile geometry newL2 content
  setClusterRefcount geometry fuel (newL2 / geometry.clusterSize) 1
  pure newL2

def cowL2IfShared (fuel l1Index : Nat) : DiskM Nat := do
  let l2Host := hostOf ((← get).l1.getD l1Index 0)
  if l2Host = 0 then pure 0
  else do
    let rc ← getRefcount geometry (l2Host / geometry.clusterSize)
    if rc ≤ 1 then pure l2Host
    else do
      let content ← readClusterViaCache geometry l2Host
      let newL2 ← newL2Table geometry fuel content
      decRefcount geometry fuel (l2Host / geometry.clusterSize)
      modify fun image => image.setL1 l1Index (owned newL2)
      pure newL2

def l2ForWrite (fuel l1Index : Nat) : DiskM Nat := do
  match (← get).l1[l1Index]? with
  | none => throw (.unsupported .pastL1Coverage)
  | some entry =>
    if hostOf entry = 0 then do
      let newL2 ← newL2Table geometry fuel (replicate geometry.clusterSize 0)
      modify fun image => (image.setL1 l1Index (owned newL2)).markHeader
      pure newL2
    else cowL2IfShared geometry fuel l1Index

def ownsCluster (entry : Entry) : DiskM Bool := do
  if isCompressed entry || decide (hostOf entry = 0) then pure false
  else if isCopied entry then pure true
  else do
    let rc ← getRefcount geometry (hostOf entry / geometry.clusterSize)
    pure (rc = 1)

def clusterBase (entry : Entry) (clusterOff : Nat) : DiskM (List UInt8) :=
  if isCompressed entry then readCompressedCluster geometry entry
  else if isZero entry then pure (replicate geometry.clusterSize 0)
  else if hostOf entry ≠ 0 then readFile (hostOf entry) geometry.clusterSize
  else readUnallocated clusterOff geometry.clusterSize

def writeCluster (fuel offset : Nat) (data : List UInt8) : DiskM Unit := do
  let inOff := offset % geometry.clusterSize
  let clusterOff := offset - inOff
  let l2Index := geometry.l2IndexOf clusterOff
  let l2Host ← l2ForWrite geometry fuel (geometry.l1IndexOf clusterOff)
  let entry ← l2Entry geometry l2Host l2Index
  let inPlace ← ownsCluster geometry entry
  if inPlace then do
    (if isCopied entry then pure () else setL2Entry geometry l2Host l2Index (entry ||| copiedBit))
    writeFile geometry (hostOf entry + inOff) data
  else do
    let base ← (if inOff = 0 ∧ data.length = geometry.clusterSize then
        pure (replicate geometry.clusterSize 0)
      else clusterBase geometry entry clusterOff)
    let newHost ← allocCluster geometry fuel
    writeFile geometry newHost (overwrite base inOff data)
    setClusterRefcount geometry fuel (newHost / geometry.clusterSize) 1
    adjustEntry geometry fuel .down entry
    setL2Entry geometry l2Host l2Index (owned newHost)

def writeClusters (fuel : Nat) : Nat → Nat → List UInt8 → DiskM Unit
  | 0, _, _ => pure ()
  | rounds + 1, offset, data =>
    if data = [] then pure ()
    else do
      let take := min (geometry.clusterSize - offset % geometry.clusterSize) data.length
      writeCluster geometry fuel offset (data.take take)
      writeClusters fuel rounds (wrap (offset + take)) (data.drop take)

def writeBytes (fuel offset : Nat) (data : List UInt8) : DiskM Unit :=
  writeClusters geometry fuel data.length offset data

def l1BytesClusters (entries : Nat) : Nat := max (divCeil (entries * 8) geometry.clusterSize) 1

def readAt (offset count : Nat) : DiskM (List UInt8) := do
  if 2 ^ 64 ≤ offset + count then throw (.unsupported .readOverflows)
  else if (← get).size < offset + count then throw (.unsupported (.readBeyondEnd offset count))
  else readBytes geometry offset count

def writeAt (fuel offset : Nat) (data : List UInt8) : DiskM Unit := do
  checkWritable geometry
  if 2 ^ 64 ≤ offset + data.length then throw (.unsupported .writeOverflows)
  else if (← get).size < offset + data.length then
    throw (.unsupported (.writeBeyondEnd offset data.length))
  else writeBytes geometry fuel offset data

/-! ### Internal snapshots (`qcow2/snapshot.rs`); names and ids are the bytes of their text -/

structure SnapshotEntry where
  l1TableOffset : Nat
  l1Size : Nat
  id : List UInt8
  name : List UInt8
  dateSec : Nat
  dateNsec : Nat
  vmClockNsec : Nat
  vmStateSize : Nat
  vmStateSizeLarge : Option Nat
  diskSize : Option Nat

namespace SnapshotEntry

section

variable (entry : SnapshotEntry)

def effectiveVmStateSize : Nat := entry.vmStateSizeLarge.getD entry.vmStateSize

def paddedSize : Nat := divCeil (40 + 24 + entry.id.length + entry.name.length) 8 * 8

def serialize : List UInt8 :=
  let bytes :=
    toBigEndian 8 entry.l1TableOffset ++ toBigEndian 4 entry.l1Size ++
    toBigEndian 2 entry.id.length ++ toBigEndian 2 entry.name.length ++
    toBigEndian 4 entry.dateSec ++ toBigEndian 4 entry.dateNsec ++
    toBigEndian 8 entry.vmClockNsec ++ toBigEndian 4 entry.vmStateSize ++ toBigEndian 4 24 ++
    toBigEndian 8 entry.effectiveVmStateSize ++ toBigEndian 8 (entry.diskSize.getD 0) ++ toBigEndian 8 0 ++
    entry.id ++ entry.name
  bytes ++ replicate (entry.paddedSize - bytes.length) 0

end

end SnapshotEntry

def parseEntry (offset : Nat) : StoreM (SnapshotEntry × Nat) := do
  let fixed ← readFile offset 40
  let field (start width : Nat) := bigEndian (window fixed start width)
  let idLen := field 12 2
  let nameLen := field 14 2
  let extra := field 36 4
  let extraBuf ← readFile (offset + 40) extra
  let ids ← readFile (offset + 40 + extra) (idLen + nameLen)
  let entry : SnapshotEntry :=
    { l1TableOffset := field 0 8
      l1Size := field 8 4
      id := geometry.host.decode (ids.take idLen)
      name := geometry.host.decode (ids.drop idLen)
      dateSec := field 16 4
      dateNsec := field 20 4
      vmClockNsec := field 24 8
      vmStateSize := field 32 4
      vmStateSizeLarge := if 8 ≤ extra then some (bigEndian (window extraBuf 0 8)) else none
      diskSize := if 16 ≤ extra then some (bigEndian (window extraBuf 8 8)) else none }
  pure (entry, offset + divCeil (40 + extra + idLen + nameLen) 8 * 8)

def parseEntries : Nat → Nat → StoreM (List SnapshotEntry)
  | 0, _ => pure []
  | count + 1, offset => do
      let (entry, next) ← parseEntry geometry offset
      let entries ← parseEntries count next
      pure (entry :: entries)

def parseTable : DiskM (List SnapshotEntry) := do
  let image ← get
  parseEntries geometry image.nbSnapshots image.snapshotsOffset

def writeRegion (fuel clusters : Nat) (bytes : List UInt8) : StoreM Nat := do
  let offset ← allocClustersContiguous geometry fuel clusters
  writeFile geometry offset (bytes ++ replicate (clusters * geometry.clusterSize - bytes.length) 0)
  (range' (offset / geometry.clusterSize) clusters).forM fun index =>
    setClusterRefcount geometry fuel index 1
  pure offset

def freeRegion (fuel offset clusters : Nat) : StoreM Unit :=
  (range' (offset / geometry.clusterSize) clusters).forM (decRefcount geometry fuel)

def oldSnapshotTableClusters : DiskM Nat := do
  let entries ← parseTable geometry
  pure (max (divCeil (entries.map SnapshotEntry.paddedSize).sum geometry.clusterSize) 1)

def rewriteSnapshotTable (fuel : Nat) (entries : List SnapshotEntry) : DiskM Unit := do
  let oldOffset := (← get).snapshotsOffset
  let oldClusters ← (if oldOffset = 0 then pure 0 else oldSnapshotTableClusters geometry)
  let bytes := entries.flatMap SnapshotEntry.serialize
  if bytes = [] then do
    modify fun image => { image with nbSnapshots := 0, snapshotsOffset := 0 }.markHeader
    freeRegion geometry fuel oldOffset oldClusters
  else do
    let newOffset ← writeRegion geometry fuel (divCeil bytes.length geometry.clusterSize) bytes
    freeRegion geometry fuel oldOffset oldClusters
    modify fun image =>
      { image with nbSnapshots := entries.length % 2 ^ 32, snapshotsOffset := newOffset }.markHeader

end Vmlab.Disk.Qcow2
