import Vmlab.Disk.Qcow2.Image
import Vmlab.Disk.Qcow2.Ledger
import Vmlab.Library.Result

/-!
# Creating an image

`Qcow2Image::create`: the header in cluster 0, the refcount table in cluster 1,
refcount block 0 in cluster 2, then the L1 table. The source fixes the
capacities of both table caches to 64; here they are parameters.
-/

namespace Vmlab.Disk.Qcow2

open Library

def qcowMagic : Nat := 0x514649fb
def extBackingFormat : Nat := 0xe2792aca
def extEnd : Nat := 0

structure HeaderDraft where
  bytes : List UInt8
  extOff : Nat

namespace HeaderDraft

def put (draft : HeaderDraft) (offset width value : Nat) : HeaderDraft :=
  { draft with bytes := overwrite draft.bytes offset (toBigEndian width value) }

def addExt (draft : HeaderDraft) (kind : Nat) (data : List UInt8) : Except DiskError HeaderDraft :=
  if draft.bytes.length < draft.extOff + 8 + data.length then .error .panic
  else
    let filled := (draft.put draft.extOff 4 kind).put (draft.extOff + 4) 4 data.length
    .ok { bytes := overwrite filled.bytes (draft.extOff + 8) data
          extOff := draft.extOff + 8 + divCeil data.length 8 * 8 }

end HeaderDraft

structure CreateParams where
  host : Host
  size : Nat
  clusterBits : Nat
  backing : Option BackingRef
  l2Cap : Nat
  refblockCap : Nat

namespace CreateParams

variable (params : CreateParams)

def geometry : Geometry where
  host := params.host
  readOnly := false
  version := 3
  clusterBits := params.clusterBits
  refcountBits := 16

def l1Size : Nat := max (divCeil params.size params.geometry.l2Span) 1 % 2 ^ 32

def l1Clusters : Nat := l1BytesClusters params.geometry params.l1Size

def l1Offset : Nat := 3 * params.geometry.clusterSize

def headerFields : HeaderDraft :=
  let fields : List (Nat × Nat × Nat) :=
    [(0, 4, qcowMagic), (4, 4, 3), (20, 4, params.clusterBits), (24, 8, params.size), (36, 4, params.l1Size),
      (40, 8, params.l1Offset), (48, 8, params.geometry.clusterSize), (56, 4, 1), (96, 4, 4), (100, 4, 112)]
  fields.foldl (fun draft (offset, width, value) => draft.put offset width value)
    { bytes := List.replicate params.geometry.clusterSize 0, extOff := 112 }

def header : Except DiskError (List UInt8) := do
  let draft ← (match params.backing.bind BackingRef.format with
    | some format => params.headerFields.addExt extBackingFormat format
    | none => .ok params.headerFields)
  let draft ← draft.addExt extEnd []
  match params.backing with
  | none => .ok draft.bytes
  | some backing =>
    if draft.bytes.length < draft.extOff + backing.name.length then
      .error (.unsupported .backingNameTooLong)
    else
      let draft' := (draft.put 8 8 draft.extOff).put 16 4 backing.name.length
      .ok (overwrite draft'.bytes draft.extOff backing.name)

def refcountTable : List Entry :=
  BitVec.ofNat 64 (2 * params.geometry.clusterSize) :: List.replicate (params.geometry.clusterSize / 8 - 1) 0

def initial (header : List UInt8) : Image where
  store :=
    { file := File.zeros (params.l1Offset + params.l1Clusters * params.geometry.clusterSize)
      refcountTableOffset := params.geometry.clusterSize
      refcountTableClusters := 1
      refcountTable := params.refcountTable
      l2Cache := .new params.l2Cap
      refblockCache := .new params.refblockCap
      free := { set := .empty, scanNext := 0 }
      headerDirty := false
      refcountTableDirty := false }
  size := params.size
  l1Size := params.l1Size
  l1TableOffset := params.l1Offset
  nbSnapshots := 0
  snapshotsOffset := 0
  headerCluster := header
  backing := params.backing
  backingImage := none
  l1 := List.replicate params.l1Size 0
  l1Dirty := false

def openBacking : DiskM Unit := do
  match (← get).backing with
  | none => pure ()
  | some backing => do
      let opened ← liftResult (params.host.openBacking backing)
      modify fun image => { image with backingImage := some opened }

def finish (fuel : Nat) (header : List UInt8) : DiskM Unit := do
  (List.range (3 + params.l1Clusters)).forM fun index =>
    liftM (setClusterRefcount params.geometry fuel index 1)
  writeFile params.geometry 0 header
  writeFile params.geometry params.geometry.clusterSize (wordsToBytes params.refcountTable)
  openBacking params

def create (fuel : Nat) : Except DiskError Image := do
  if params.host.maxFileLen < params.l1Offset + params.l1Clusters * params.geometry.clusterSize then
    .error .io
  else
    let header ← params.header
    match params.finish fuel header (params.initial header) with
    | .ok _ image => .ok image
    | .error error _ => .error error

end CreateParams

/-! ### The tables of a new image -/

open List

variable {header : List UInt8} {store : Store} {count fuel : Nat} {image : Image}

def Image.metadata (geometry : Geometry) (image : Image) : List Nat :=
  [0] ++ List.range' (image.store.refcountTableOffset / geometry.clusterSize) image.store.refcountTableClusters ++
    pointers geometry image.store.refcountTable ++
    List.range' (image.l1TableOffset / geometry.clusterSize) (l1BytesClusters geometry image.l1Size)

/-- No cluster serves two purposes, and the tables' clusters are those that
have a reference, one each. -/
structure LaidOut (geometry : Geometry) (image : Image) : Prop where
  apart : (image.metadata geometry).Nodup
  own : ∀ cluster ∈ image.metadata geometry, image.store.refcount geometry cluster = 1
  others : ∀ cluster, cluster ∉ image.metadata geometry → image.store.refcount geometry cluster = 0

namespace CreateParams

variable {params : CreateParams}

structure Sized (params : CreateParams) : Prop where
  clusterBits_ge : 9 ≤ params.clusterBits
  clusterBits_le : params.clusterBits ≤ 21

section

variable (sized : params.Sized)
include sized

theorem Sized.supported : params.geometry.Supported := ⟨sized.clusterBits_ge, sized.clusterBits_le, .sixteen⟩

theorem Sized.le_clusterSize : 512 ≤ params.geometry.clusterSize :=
  Nat.le_of_dvd params.geometry.clusterSize_pos sized.supported.dvd_clusterSize

theorem Sized.refblockEntries : 2 * params.geometry.refblockEntries = params.geometry.clusterSize := by
  have product := sized.supported.refblockEntries_mul
  have bits : params.geometry.refcountBits = 16 := rfl
  rw [bits] at product
  omega

theorem Sized.three_lt : 3 < params.geometry.refblockEntries := by
  have := sized.refblockEntries
  have := sized.le_clusterSize
  omega

end

theorem length_put {draft : HeaderDraft} {size offset width : Nat} (length : draft.bytes.length = size)
    (inside : offset + width ≤ size) (value : Nat) : (draft.put offset width value).bytes.length = size :=
  length_overwrite_of_eq length (by rwa [length_toBigEndian])

theorem length_addExt {draft filled : HeaderDraft} {size kind : Nat} {data : List UInt8}
    (length : draft.bytes.length = size) (added : draft.addExt kind data = .ok filled) :
    filled.bytes.length = size := by
  unfold HeaderDraft.addExt at added
  split at added
  · cases added
  rename_i room
  cases added
  have first := length_put length (by omega : draft.extOff + 4 ≤ size) kind
  have second := length_put first (by omega : draft.extOff + 4 + 4 ≤ size) data.length
  exact length_overwrite_of_eq second (by omega)

theorem length_headerFields (sized : params.Sized) :
    params.headerFields.bytes.length = params.geometry.clusterSize := by
  have size := sized.le_clusterSize
  have start : (replicate params.geometry.clusterSize (0 : UInt8)).length = params.geometry.clusterSize :=
    length_replicate
  simp only [headerFields, foldl_cons, foldl_nil]
  iterate 10 refine length_put ?_ (by omega) _
  exact start

theorem length_header (sized : params.Sized) (made : params.header = .ok header) :
    header.length = params.geometry.clusterSize := by
  have fields := length_headerFields sized
  unfold CreateParams.header at made
  generalize params.headerFields = draft at fields made
  obtain ⟨formatted, added, made⟩ := bind_eq_ok.mp made
  have length : formatted.bytes.length = params.geometry.clusterSize := by
    cases format : params.backing.bind BackingRef.format with
    | none =>
      rw [format] at added
      cases added
      exact fields
    | some format' =>
      rw [format] at added
      exact length_addExt fields added
  obtain ⟨ended, closed, made⟩ := bind_eq_ok.mp made
  have length := length_addExt length closed
  split at made
  · cases made
    exact length
  obtain ⟨room, made⟩ := ite_error_eq_ok.mp made
  cases made
  have size := sized.le_clusterSize
  have offset := length_put length (by omega : 8 + 8 ≤ params.geometry.clusterSize) ended.extOff
  exact length_overwrite_of_eq (length_put offset (by omega) _) (by omega)

structure Counting (params : CreateParams) (store : Store) (count : Nat) : Prop
    extends SameTable (params.initial []).store store where
  coherent : Coherent params.geometry store
  l2 : ∀ host, store.l2Cache.find? host = none
  free : ∀ cluster, store.free.set.get? cluster = none
  refcount : ∀ cluster, store.refcount params.geometry cluster = if cluster < count then 1 else 0

section

variable (sized : params.Sized)
include sized

theorem hostOffset_two : HostOffset (2 * params.geometry.clusterSize) where
  aligned := sized.supported.dvd_clusterSize.trans (Nat.dvd_mul_left ..)
  small := by
    have := sized.supported.clusterSize_le
    omega

theorem blockHost_initial (tableIndex : Nat) : (params.initial []).store.blockHost tableIndex =
      if tableIndex = 0 then 2 * params.geometry.clusterSize else 0 := by
  show hostOf (params.refcountTable.getD tableIndex 0) = _
  cases tableIndex with
  | zero => exact hostOf_ofNat (hostOffset_two sized)
  | succ index =>
    rw [refcountTable, getD_cons_succ, getD_eq_getElem?_getD, getElem?_replicate]
    split <;> rfl

theorem present_iff (same : SameTable (params.initial []).store store)
    {tableIndex : Nat} : store.blockHost tableIndex ≠ 0 ↔ tableIndex = 0 := by
  have positive := params.geometry.clusterSize_pos
  rw [same.blockHost, blockHost_initial sized]
  split
  · next first => exact iff_of_true (by omega) first
  · next other => exact iff_of_false (fun nonzero => nonzero rfl) other

theorem counting_initial : Counting params (params.initial []).store 0 where
  toSameTable := .refl _
  coherent :=
    { l2 := ⟨fun _ _ _ held => (nomatch held), fun _ _ held => absurd rfl held⟩
      blocks := ⟨fun _ _ _ held => (nomatch held), fun _ _ held => absurd rfl held⟩
      allocated := fun _ held => absurd rfl held
      hosts := fun tableIndex present => by
        rw [blockHost_initial sized, if_pos ((present_iff sized (.refl _)).mp present)]
        refine ⟨Nat.dvd_mul_left .., ?_⟩
        show _ ≤ 3 * params.geometry.clusterSize + _
        omega
      distinct := fun left right leftHeld same => by
        rw [(present_iff sized (.refl _)).mp leftHeld, (present_iff sized (.refl _)).mp (same.trans_ne leftHeld)]
      apart := fun _ _ held => absurd rfl held }
  l2 _ := rfl
  free _ := rfl
  refcount cluster := by
    have zeros (offset count : Nat) : (params.initial []).store.file.read offset count = replicate count 0 :=
      File.read_zeros ..
    rw [if_neg (Nat.not_lt_zero _), Store.refcount]
    split
    · rfl
    · rw [Store.block, currentTable_of_none rfl, zeros]
      exact bitsGet_zeros _ _ _ .sixteen

theorem covered_iff (same : SameTable (params.initial []).store store)
    {cluster : Nat} : store.Covered params.geometry cluster ↔ cluster < params.geometry.refblockEntries := by
  rw [Store.Covered, present_iff sized same, Nat.div_eq_zero_iff]
  have := sized.three_lt
  omega

theorem counting_step (counting : Counting params store count)
    (inside : count < params.geometry.refblockEntries) (fuel : Nat) :
    Ensures (setClusterRefcount params.geometry fuel count 1) store fun _ after =>
      Counting params after (count + 1) := by
  refine (setClusterRefcount_ends sized.supported counting.coherent
    ((covered_iff sized counting.toSameTable).mpr inside) (by exact (by decide : 1 < 2 ^ 16))).ensures.mono fun _ after recounted => ?_
  refine ⟨counting.toSameTable.trans recounted.toSameTable, recounted.coherent, ?_, fun cluster => ?_, fun cluster => ?_⟩
  · rw [recounted.l2]
    exact counting.l2
  · rw [recounted.free, if_neg (by decide), SortedMap.get?_erase, counting.free]
    split <;> rfl
  rw [recounted.refcount, counting.refcount]
  split
  · next same => rw [if_pos (by omega)]
  · next differ => exact if_congr (by omega) rfl rfl

end

def withStore (params : CreateParams) (header : List UInt8) (store : Store) : Image :=
  { params.initial header with store }

theorem counting_range (sized : params.Sized) (header : List UInt8) {start : Nat}
    (counting : Counting params store start) (inside : start + count ≤ params.geometry.refblockEntries) :
    Ensures ((List.range' start count).forM fun index =>
        (liftM (setClusterRefcount params.geometry fuel index 1) : DiskM Unit)) (withStore params header store)
      fun _ image => ∃ after, image = withStore params header after ∧ Counting params after (start + count) := by
  induction count generalizing start store with
  | zero => exact .pure ⟨store, rfl, counting⟩
  | succ count ih =>
    rw [range'_succ]
    show Ensures (_ >>= fun _ => (List.range' (start + 1) count).forM _) _ _
    have first : Ensures (liftM (setClusterRefcount params.geometry fuel start 1) : DiskM Unit)
        (withStore params header store) fun _ image =>
          ∃ after, image = withStore params header after ∧ Counting params after (start + 1) :=
      Ensures.zoom ((counting_step sized counting (by omega) fuel).mono fun _ after next => ⟨after, rfl, next⟩)
    refine .bind first ?_
    rintro _ _ ⟨after, rfl, next⟩
    exact (ih next (by omega)).mono fun _ _ ⟨last, same, counted⟩ =>
      ⟨last, same, (by omega : start + 1 + count = start + (count + 1)) ▸ counted⟩

structure Settled (params : CreateParams) (image : Image) : Prop
    extends SameTable (params.initial []).store image.store where
  refcount : ∀ cluster, image.store.refcount params.geometry cluster = if cluster < 3 + params.l1Clusters then 1 else 0
  l1Offset : image.l1TableOffset = params.l1Offset
  l1Size : image.l1Size = params.l1Size

theorem settled_write (sized : params.Sized) (settled : Settled params image) {offset : Nat}
    {data : List UInt8} (before : offset + data.length ≤ 2 * params.geometry.clusterSize) :
    Ensures (liftM (writeFile params.geometry offset data) : DiskM Unit) image fun _ after =>
      Settled params after := by
  refine .zoom ((writeFile_ends image.store offset data).ensures.mono fun _ after wrote => ?_)
  rcases wrote with ⟨_, rfl⟩ | ⟨_, _, rfl⟩
  · exact settled
  have same : SameTable image.store { image.store with file := image.store.file.patch offset data } := ⟨rfl, rfl, rfl⟩
  refine ⟨settled.toSameTable.trans same, fun cluster => ?_, settled.l1Offset, settled.l1Size⟩
  rw [← settled.refcount]
  refine Store.refcount_congr same (fun tableIndex present => ?_) cluster
  have home : image.store.blockHost tableIndex = 2 * params.geometry.clusterSize := by
    rw [settled.toSameTable.blockHost, blockHost_initial sized,
      if_pos ((present_iff sized settled.toSameTable).mp present)]
  simp only [Store.block, currentTable]
  split
  · rfl
  show File.read _ (image.store.blockHost tableIndex) _ = _
  rw [home]
  exact File.read_patch_of_disjoint (.inr before)

theorem length_refcountTable (sized : params.Sized) :
    8 * params.refcountTable.length = params.geometry.clusterSize := by
  have entries := sized.supported.l2Entries_mul
  have size := sized.le_clusterSize
  rw [refcountTable, length_cons, length_replicate]
  rw [Geometry.l2Entries] at entries
  omega

theorem length_wordsToBytes (words : List Entry) : (wordsToBytes words).length = 8 * words.length := by
  induction words with
  | nil => rfl
  | cons word words ih =>
    rw [wordsToBytes, flatMap_cons, length_append, length_toBigEndian, length_cons]
    rw [wordsToBytes] at ih
    omega

section

variable (sized : params.Sized)
include sized

theorem settled_finish
    (made : params.header = .ok header) (fits : 3 + params.l1Clusters ≤ params.geometry.refblockEntries) :
    Ensures (params.finish fuel header) (params.initial header) fun _ image => Settled params image := by
  rw [finish, range_eq_range']
  refine .bind (counting_range sized header (counting_initial sized) (by omega)) ?_
  rintro _ _ ⟨store, rfl, counting⟩
  rw [Nat.zero_add] at counting
  have settled : Settled params (withStore params header store) := ⟨counting.toSameTable, counting.refcount, rfl, rfl⟩
  refine .bind (settled_write sized settled ?_) fun _ image settled => ?_
  · rw [length_header sized made]
    omega
  refine .bind (settled_write sized settled ?_) fun _ image settled => ?_
  · rw [length_wordsToBytes, length_refcountTable sized]
    omega
  apply Ensures.getThen
  split
  · exact .pure settled
  cases opened : params.host.openBacking _ with
  | error error => exact .throw
  | ok backing =>
    apply Ensures.pureThen
    apply Ensures.modify
    exact ⟨settled.toSameTable, settled.refcount, settled.l1Offset, settled.l1Size⟩

theorem pointers_refcountTable : pointers params.geometry params.refcountTable = [2] := by
  have positive := params.geometry.clusterSize_pos
  have host := hostOf_ofNat (hostOffset_two sized)
  have first : pointer params.geometry (BitVec.ofNat 64 (2 * params.geometry.clusterSize)) = [2] := by
    rw [pointer, host, if_neg (by omega), Nat.mul_div_cancel _ positive]
  have rest (count : Nat) : pointers params.geometry (replicate count 0) = [] :=
    flatMap_eq_nil_iff.mpr fun entry member => by
      rw [eq_of_mem_replicate member]
      rfl
  rw [refcountTable, pointers, flatMap_cons, first]
  exact congrArg (2 :: ·) (rest _)

theorem Settled.metadata (settled : Settled params image) :
    image.metadata params.geometry = List.range (3 + params.l1Clusters) := by
  have positive := params.geometry.clusterSize_pos
  have offset : image.store.refcountTableOffset / params.geometry.clusterSize = 1 := by
    rw [settled.offset]
    exact Nat.div_self positive
  have clusters : image.store.refcountTableClusters = 1 := settled.clusters
  have l1 : image.l1TableOffset / params.geometry.clusterSize = 3 := by
    rw [settled.l1Offset]
    exact Nat.mul_div_cancel _ positive
  rw [Image.metadata, offset, clusters, settled.table, l1, settled.l1Size, range_eq_range', ← range'_append_1]
  exact congrArg ([0, 1] ++ · ++ _) (pointers_refcountTable sized)

theorem laidOut_of_settled (settled : Settled params image) : LaidOut params.geometry image := by
  have metadata := settled.metadata sized
  refine ⟨?_, fun cluster member => ?_, fun cluster outside => ?_⟩
  · rw [metadata]
    exact nodup_range
  · rw [metadata, mem_range] at member
    rw [settled.refcount, if_pos member]
  · rw [metadata, mem_range] at outside
    rw [settled.refcount, if_neg outside]

end

theorem isBlock_iff (sized : params.Sized) (same : SameTable (params.initial []).store store)
    {cluster : Nat} : store.IsBlock params.geometry cluster ↔ cluster = 2 := by
  have positive := params.geometry.clusterSize_pos
  have first : store.blockHost 0 = 2 * params.geometry.clusterSize := by
    rw [same.blockHost, blockHost_initial sized, if_pos rfl]
  constructor
  · rintro ⟨tableIndex, present, home⟩
    cases (present_iff sized same).mp present
    exact Nat.eq_of_mul_eq_mul_right positive (home.symm.trans first)
  · rintro rfl
    exact ⟨0, (present_iff sized same).mpr rfl, first⟩

theorem Counting.ledger (sized : params.Sized) (counting : Counting params store count) (three : 3 ≤ count) :
    Ledger params.geometry store [1] (fun cluster => if cluster = 0 ∨ 3 ≤ cluster ∧ cluster < count then 1 else 0)
      fun _ => 0 where
  coherent := counting.coherent
  counted cluster := by
    rw [counting.refcount, counting.table]
    show _ = (pointers params.geometry params.refcountTable).count cluster + _ + _ + _
    rw [pointers_refcountTable sized, count_singleton, count_singleton]
    simp only [beq_iff_eq]
    split_ifs <;> omega
  blocksApart cluster isBlock := by
    cases (isBlock_iff sized counting.toSameTable).mp isBlock
    exact ⟨by decide, if_neg (by omega), rfl⟩
  regionApart cluster member := by
    cases mem_singleton.mp member
    exact ⟨if_neg (by omega), rfl⟩
  tablesApart _ tabled := absurd tabled (Nat.lt_irrefl 0)
  keys cluster cached := absurd (counting.l2 _) cached
  header := by
    rw [if_pos (.inl rfl)]
    decide
  free cluster listed := absurd (counting.free cluster) listed

def secondHome (params : CreateParams) : Nat := params.geometry.refblockEntries * params.geometry.clusterSize

section

variable (sized : params.Sized)
include sized

theorem hostOffset_second : HostOffset (secondHome params) := by
  refine ⟨sized.supported.dvd_clusterSize.trans (Nat.dvd_mul_left ..), ?_⟩
  have half := sized.refblockEntries
  have small := sized.supported.clusterSize_le
  calc params.geometry.refblockEntries * params.geometry.clusterSize
      ≤ 2 ^ 21 * 2 ^ 21 := Nat.mul_le_mul (by omega) small
    _ < 2 ^ 56 := by decide

theorem second_stays {after : Store}
    (installed : store.blockHost 1 = secondHome params) (grown : TableGrows store after) :
    after.blockHost 1 = secondHome params := by
  have entries := sized.three_lt
  rw [grown.blocks 1, installed]
  rw [installed]
  exact Nat.mul_ne_zero (by omega) params.geometry.clusterSize_pos.ne'

theorem second_inside (same : SameTable (params.initial []).store store) : 1 < store.refcountTable.length := by
  have length := length_refcountTable sized
  have size := sized.le_clusterSize
  rw [same.table]
  show 1 < params.refcountTable.length
  omega

variable (counting : Counting params store params.geometry.refblockEntries)
include counting

theorem allocRefblock_second :
    Ensures (allocRefblock params.geometry fuel 1) store fun _ after => after.blockHost 1 = secondHome params := by
  have entries := sized.three_lt
  cases fuel with
  | zero => exact .throw
  | succ fuel =>
    refine .bind (refillFreeMap_spec (by omega) false (counting.ledger sized entries.le)) ?_
    rintro _ filled ⟨refilled, _⟩
    refine .bind (takeMappedRun_spec 1 refilled.ledger) ?_
    rintro hole taken ⟨took, free, _⟩
    have same : SameTable (params.initial []).store taken :=
      (counting.toSameTable.trans refilled.toSameTable).trans took.toSameTable
    -- Everything that is covered has a reference.
    have full : hole = none := by
      cases hole with
      | none => rfl
      | some first =>
        obtain ⟨zero, covered⟩ := (free first rfl).free 0 (by decide)
        rw [Nat.add_zero] at zero covered
        rw [took.refcount, refilled.refcount, counting.refcount, if_pos ((covered_iff sized same).mp covered)] at zero
        cases zero
    subst full
    rw [Option.getD_none, Nat.one_mul]
    apply Ensures.modifyThen
    have installed : (Store.installRefblock params.geometry taken 1 params.geometry.refblockEntries).blockHost 1 =
        secondHome params := by
      rw [Store.blockHost, Store.installRefblock, getD_eq_getElem?_getD, getElem?_set_self (second_inside sized same)]
      exact hostOf_ofNat (hostOffset_second sized)
    refine .bind (writeFile_sameEntries _ _ _) fun _ written wrote => ?_
    have placed := second_stays sized installed wrote.grows
    exact ((allocatorGrows params.geometry fuel).setClusterRefcount _ _ written).mono fun _ _ grown =>
      second_stays sized placed grown

theorem setClusterRefcount_second :
    Ensures (setClusterRefcount params.geometry fuel params.geometry.refblockEntries 1) store fun _ after =>
      after.blockHost 1 = secondHome params := by
  have entries := sized.three_lt
  have missing : store.blockHost 1 = 0 := not_not.mp fun present =>
    absurd ((present_iff sized counting.toSameTable).mp present) (by decide)
  cases fuel with
  | zero => exact .throw
  | succ fuel =>
    rw [setClusterRefcount, Nat.div_self (by omega)]
    refine .bind (ensureRefcountTableLen_of_le (second_inside sized counting.toSameTable)).ensures ?_
    rintro _ _ rfl
    apply Ensures.getThen
    rw [if_pos missing]
    refine .bind (allocRefblock_second sized counting) fun _ allocated placed => ?_
    refine .bind (refblockSet_sameEntries _ _ _ allocated) fun _ counted set => ?_
    apply Ensures.modify
    have stayed := second_stays sized placed set.grows
    exact stayed

end

private structure ImageGrows (image after : Image) : Prop where
  store : TableGrows image.store after.store
  l1Offset : after.l1TableOffset = image.l1TableOffset
  l1Size : after.l1Size = image.l1Size

private instance : Std.Refl ImageGrows := ⟨fun image => ⟨refl_of TableGrows image.store, rfl, rfl⟩⟩

private instance : IsTrans Image ImageGrows := ⟨fun _ _ _ left right =>
  ⟨trans_of TableGrows left.store right.store, right.l1Offset.trans left.l1Offset, right.l1Size.trans left.l1Size⟩⟩

theorem lift_grows {α : Type} {program : StoreM α} (grows : Follows TableGrows program) :
    Follows ImageGrows (liftM program : DiskM α) :=
  fun image => .zoom ((grows image.store).mono fun _ _ grown => ⟨grown, rfl, rfl⟩)

theorem openBacking_grows (params : CreateParams) : Follows ImageGrows (openBacking params) := by
  refine .bind .get fun image => ?_
  cases image.backing with
  | none => exact .pure _
  | some backing =>
    show Follows ImageGrows (liftResult (params.host.openBacking backing) >>= _)
    cases params.host.openBacking backing with
    | error error => exact .throw _
    | ok opened =>
      refine .bind (.pure _) fun _ => .modify fun image => ?_
      exact ⟨refl_of TableGrows image.store, rfl, rfl⟩

section

variable (sized : params.Sized) (more : params.geometry.refblockEntries < 3 + params.l1Clusters)
include sized more

theorem finish_second : Ensures (params.finish fuel header) (params.initial header) fun _ image =>
      image.store.blockHost 1 = secondHome params ∧ image.l1TableOffset = params.l1Offset ∧
        image.l1Size = params.l1Size := by
  obtain ⟨rest, split⟩ := Nat.exists_eq_add_of_lt more
  have ranges : List.range (3 + params.l1Clusters) = List.range' 0 params.geometry.refblockEntries ++
      params.geometry.refblockEntries :: List.range' (params.geometry.refblockEntries + 1) rest := by
    rw [range_eq_range', split, Nat.add_assoc, ← range'_append_1, Nat.zero_add, range'_succ]
  have writes (offset : Nat) (data : List UInt8) :
      Follows ImageGrows (liftM (writeFile params.geometry offset data) : DiskM Unit) :=
    lift_grows fun store => (writeFile_sameEntries offset data store).mono fun _ _ same => same.grows
  rw [finish, ranges, forM_eq_forM, forM_append, bind_assoc]
  refine .bind (counting_range sized header (counting_initial sized) (by omega)) ?_
  rintro _ _ ⟨store, rfl, counting⟩
  rw [Nat.zero_add] at counting
  rw [forM_cons, bind_assoc]
  have placed : Ensures (liftM (setClusterRefcount params.geometry fuel params.geometry.refblockEntries 1) : DiskM Unit)
      (withStore params header store) fun _ image => image.store.blockHost 1 = secondHome params ∧
        image.l1TableOffset = params.l1Offset ∧ image.l1Size = params.l1Size :=
    Ensures.zoom ((setClusterRefcount_second sized counting).mono fun _ _ here => ⟨here, rfl, rfl⟩)
  refine .bind placed fun _ image ⟨here, l1Offset, l1Size⟩ => ?_
  have follows : Follows ImageGrows (do
      (List.range' (params.geometry.refblockEntries + 1) rest).forM fun index =>
        (liftM (setClusterRefcount params.geometry fuel index 1) : DiskM Unit)
      writeFile params.geometry 0 header
      writeFile params.geometry params.geometry.clusterSize (wordsToBytes params.refcountTable)
      openBacking params : DiskM Unit) := by
    refine .bind (.forM fun index => lift_grows ((allocatorGrows params.geometry fuel).setClusterRefcount index 1)) ?_
    exact fun _ => .bind (writes _ _) fun _ => .bind (writes _ _) fun _ => openBacking_grows params
  refine (follows image).mono fun _ after grown => ?_
  exact ⟨second_stays sized here grown.store, grown.l1Offset.trans l1Offset, grown.l1Size.trans l1Size⟩

theorem overlap_of_second
    (placed : image.store.blockHost 1 = params.geometry.refblockEntries * params.geometry.clusterSize)
    (l1Offset : image.l1TableOffset = params.l1Offset) (l1Size : image.l1Size = params.l1Size) :
    params.geometry.refblockEntries ∈ pointers params.geometry image.store.refcountTable ∧
      params.geometry.refblockEntries ∈ range' (image.l1TableOffset / params.geometry.clusterSize)
        (l1BytesClusters params.geometry image.l1Size) := by
  have entries := sized.three_lt
  have positive := params.geometry.clusterSize_pos
  constructor
  · have present : image.store.blockHost 1 ≠ 0 := by
      rw [placed]
      exact Nat.mul_ne_zero (by omega) positive.ne'
    have inside := Store.lt_length_of_blockHost present
    rw [Store.blockHost, getD_eq_getElem?_getD, getElem?_eq_getElem inside, Option.getD_some] at placed present
    rw [mem_pointers]
    exact ⟨_, getElem_mem inside, present, by rw [placed, mul_div_clusterSize]⟩
  · rw [l1Offset, l1Size, CreateParams.l1Offset, mul_div_clusterSize, mem_range'_1]
    exact ⟨entries.le, more⟩

end

/-- The tables of a new image are apart and counted once exactly when its first
refcount block counts all of them. -/
theorem created_layout_iff (sized : params.Sized) {fuel : Nat} {image : Image} (created : params.create fuel = .ok image) :
    LaidOut params.geometry image ↔ 3 + params.l1Clusters ≤ params.geometry.refblockEntries := by
  obtain ⟨_, created⟩ := ite_error_eq_ok.mp created
  obtain ⟨header, made, created⟩ := bind_eq_ok.mp created
  cases run : params.finish fuel header (params.initial header) with
  | error error after =>
    rw [run] at created
    cases created
  | ok value after =>
    rw [run] at created
    cases created
    constructor
    · intro laidOut
      by_contra more
      obtain ⟨placed, l1Offset, l1Size⟩ := finish_second sized (Nat.not_le.mp more) _ _ run
      obtain ⟨block, l1⟩ := overlap_of_second sized (Nat.not_le.mp more) placed l1Offset l1Size
      exact disjoint_of_nodup_append laidOut.apart (mem_append_right _ block) l1
    · intro fits
      exact laidOut_of_settled sized (settled_finish sized made fits _ _ run)

def smallClusters (size : Nat) : CreateParams where
  host := { maxFileLen := 2 ^ 40, inflate := fun _ _ => none, decode := id, openBacking := fun _ => throw .io }
  size := size
  clusterBits := 9
  backing := none
  l2Cap := 64
  refblockCap := 64

theorem created_layout_megabyte :
    ∃ image, (smallClusters 1048576).create 2 = .ok image ∧ LaidOut (smallClusters 1048576).geometry image := by
  have runs : (match (smallClusters 1048576).create 2 with
      | .ok _ => true
      | .error _ => false) = true := by decide +kernel
  cases run : (smallClusters 1048576).create 2 with
  | error error =>
    rw [run] at runs
    cases runs
  | ok image => exact ⟨image, rfl, (created_layout_iff ⟨by decide, by decide⟩ run).mpr (by decide)⟩

def countAfterScan (params : CreateParams) (fuel : Nat) : StoreM Unit := do
  let hole ← takeMappedRun 1
  let hostIdx := hole.getD (1 * params.geometry.refblockEntries)
  modify fun store => store.installRefblock params.geometry 1 hostIdx
  writeFile params.geometry (hostIdx * params.geometry.clusterSize) (List.replicate params.geometry.clusterSize 0)
  setClusterRefcount params.geometry fuel hostIdx 1
  refblockSet params.geometry 1 0 1
  modify fun store => store.noteFree params.geometry.refblockEntries 1

def scannedStore (params : CreateParams) (store : Store) : Store :=
  { store with
    refblockCache := (store.refblockCache.touch 0).touch 0
    free := { store.free with scanNext := store.refcountTable.length * params.geometry.refblockEntries } }

theorem setClusterRefcount_scanned (sized : params.Sized) {entry : List UInt8 × Bool} (fuel : Nat)
    (counting : Counting params store params.geometry.refblockEntries) (start : store.free.scanNext = 0)
    (empty : store.free.set.size = 0) (cached : store.refblockCache.find? 0 = some entry) :
    setClusterRefcount params.geometry (fuel + 2) params.geometry.refblockEntries 1 store =
      countAfterScan params fuel (scannedStore params store) := by
  have entries := sized.three_lt
  have present : store.blockHost 0 ≠ 0 := (present_iff sized counting.toSameTable).mpr rfl
  have missing (tableIndex : Nat) (later : 1 ≤ tableIndex) : store.blockHost tableIndex = 0 :=
    not_not.mp fun held => by
      have := (present_iff sized counting.toSameTable).mp held
      omega
  have full (index : Nat) (inside : index < params.geometry.refblockEntries) :
      bitsGet entry.1 index params.geometry.refcountBits ≠ 0 := by
    have one := counting.refcount index
    rw [if_pos inside, Store.refcount, Nat.div_eq_of_lt inside, if_neg present, Nat.mod_eq_of_lt inside, Store.block,
      currentTable_of_some cached] at one
    rw [one]
    decide
  have refill := refillFreeMap_full (by omega) cached present missing start (by rw [empty]; decide) full
  have long : ensureRefcountTableLen params.geometry (fuel + 1) (1 + 1) store = .ok () store := by
    show (if 1 + 1 ≤ store.refcountTable.length then _ else _ : StoreM Unit) store = _
    have enough : 1 + 1 ≤ store.refcountTable.length := second_inside sized counting.toSameTable
    rw [if_pos enough]
    rfl
  rw [setClusterRefcount, Nat.div_self (by omega), Nat.mod_self, run_bind long]
  show ((if store.blockHost 1 = 0 then _ else _ : StoreM Unit) >>= _) store = _
  rw [if_pos (missing 1 (Nat.le_refl 1)), allocRefblock, bind_assoc, run_bind refill, countAfterScan]
  simp only [bind_assoc]
  rfl

def countRange (params : CreateParams) (fuel start count : Nat) : DiskM Unit :=
  (List.range' start count).forM fun index => liftM (setClusterRefcount params.geometry fuel index 1)

def countRest (params : CreateParams) (fuel rest : Nat) (header : List UInt8) : DiskM Unit := do
  countRange params fuel (params.geometry.refblockEntries + 1) rest
  writeFile params.geometry 0 header
  writeFile params.geometry params.geometry.clusterSize (wordsToBytes params.refcountTable)
  openBacking params

theorem create_in_stages (sized : params.Sized) {rest : Nat} {half last : Image}
    {second : Store} (made : params.header = .ok header)
    (room : params.l1Offset + params.l1Clusters * params.geometry.clusterSize ≤ params.host.maxFileLen)
    (more : 3 + params.l1Clusters = params.geometry.refblockEntries + (rest + 1))
    (counted : countRange params (fuel + 2) 0 params.geometry.refblockEntries (params.initial header) = .ok () half)
    (start : half.store.free.scanNext = 0) (empty : half.store.free.set.size = 0)
    (cached : (half.store.refblockCache.find? 0).isSome = true)
    (placed : countAfterScan params fuel (scannedStore params half.store) = .ok () second)
    (ended : countRest params (fuel + 2) rest header { half with store := second } = .ok () last) :
    params.create (fuel + 2) = .ok last := by
  have ranges : List.range (3 + params.l1Clusters) = List.range' 0 params.geometry.refblockEntries ++
      params.geometry.refblockEntries :: List.range' (params.geometry.refblockEntries + 1) rest := by
    rw [range_eq_range', more, ← range'_append_1, Nat.zero_add, range'_succ]
  obtain ⟨entry, held⟩ := Option.isSome_iff_exists.mp cached
  obtain ⟨store, same, counting⟩ :=
    counting_range sized header (counting_initial sized) (Nat.le_of_eq (Nat.zero_add _)) _ _ counted
  rw [Nat.zero_add] at counting
  subst same
  have second : (liftM (setClusterRefcount params.geometry (fuel + 2) params.geometry.refblockEntries 1) : DiskM Unit)
      (withStore params header store) = .ok () { withStore params header store with store := second } :=
    run_zoom ((setClusterRefcount_scanned sized fuel counting start empty held).trans placed)
  have finished : params.finish (fuel + 2) header (params.initial header) = .ok () last := by
    rw [finish, ranges, forM_eq_forM, forM_append, bind_assoc]
    refine (run_bind counted).trans ?_
    rw [forM_cons, bind_assoc]
    exact (run_bind second).trans ended
  rw [create, if_neg (Nat.not_lt.mpr room), made]
  show (match params.finish (fuel + 2) header (params.initial header) with
    | .ok _ image => Except.ok image
    | .error error _ => .error error) = _
  rw [finished]

def succeeds {ε σ α : Type} (result : EStateM.Result ε σ α) (check : σ → Bool) : Bool :=
  match result with
  | .ok _ state => check state
  | .error _ _ => false

theorem ok_of_succeeds {ε σ : Type} {result : EStateM.Result ε σ Unit} {check : σ → Bool}
    (success : succeeds result check = true) : result = .ok () (finalState result) ∧ check (finalState result) = true := by
  cases result with
  | ok value state => exact ⟨rfl, success⟩
  | error error state => cases success

def headerOf (params : CreateParams) : List UInt8 :=
  match params.header with
  | .ok header => header
  | .error _ => []

theorem header_eq_headerOf (made : params.header.isOk = true) : params.header = .ok (headerOf params) := by
  unfold headerOf
  cases header : params.header with
  | ok bytes => rfl
  | error error =>
    rw [header] at made
    cases made

def largeDisk : CreateParams := smallClusters 536870912

def largeHalf : EStateM.Result DiskError Image Unit :=
  countRange largeDisk 4 0 largeDisk.geometry.refblockEntries (largeDisk.initial (headerOf largeDisk))

def largeSecond : EStateM.Result DiskError Store Unit :=
  countAfterScan largeDisk 2 (scannedStore largeDisk (finalState largeHalf).store)

def largeRest : EStateM.Result DiskError Image Unit :=
  countRest largeDisk 4 2 (headerOf largeDisk) { finalState largeHalf with store := finalState largeSecond }

theorem largeDisk_created : largeDisk.create 4 = .ok (finalState largeRest) ∧
    (finalState largeRest).store.blockHost 1 = 256 * 512 ∧ (finalState largeRest).l1TableOffset = 3 * 512 ∧
      (finalState largeRest).l1Size = 16384 := by
  have half : succeeds largeHalf (fun image => decide (image.store.free.scanNext = 0 ∧ image.store.free.set.size = 0) &&
      (image.store.refblockCache.find? 0).isSome) = true := by decide +kernel
  have second : succeeds largeSecond (fun _ => true) = true := by decide +kernel
  have rest : succeeds largeRest (fun image => decide (image.store.blockHost 1 = 256 * 512 ∧
      image.l1TableOffset = 3 * 512 ∧ image.l1Size = 16384)) = true := by decide +kernel
  obtain ⟨counted, checked⟩ := ok_of_succeeds half
  obtain ⟨placed, _⟩ := ok_of_succeeds second
  obtain ⟨ended, found⟩ := ok_of_succeeds rest
  obtain ⟨unscanned, cached⟩ := Bool.and_eq_true_iff.mp checked
  obtain ⟨start, empty⟩ := of_decide_eq_true unscanned
  refine ⟨?_, of_decide_eq_true found⟩
  exact create_in_stages ⟨by decide, by decide⟩ (header_eq_headerOf (by decide +kernel)) (by decide +kernel)
    (by decide +kernel) counted start empty cached placed ended

/-- The second refcount block is written into the L1 table. -/
theorem created_block_inside_l1 : ∃ image, (smallClusters 536870912).create 4 = .ok image ∧
      256 ∈ pointers (smallClusters 536870912).geometry image.store.refcountTable ∧
      256 ∈ List.range' (image.l1TableOffset / (smallClusters 536870912).geometry.clusterSize)
        (l1BytesClusters (smallClusters 536870912).geometry image.l1Size) := by
  obtain ⟨created, placed, l1Offset, l1Size⟩ := largeDisk_created
  have sized : (smallClusters 536870912).Sized := ⟨by decide, by decide⟩
  have more : (smallClusters 536870912).geometry.refblockEntries < 3 + (smallClusters 536870912).l1Clusters := by
    decide +kernel
  exact ⟨_, created, overlap_of_second sized more placed l1Offset l1Size⟩

end CreateParams

end Vmlab.Disk.Qcow2
