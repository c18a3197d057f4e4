import Vmlab.Disk.Qcow2.Image
import Vmlab.Disk.Qcow2.Ledger

/-!
# Refcounts of compressed clusters and of the snapshot table

Reading follows the sectors of a descriptor's byte range; counting references adds the sectors to an offset that may
lie inside the first of them. A count moves by one below its maximum, and rewriting the snapshot table releases the
clusters its serialized entries would fill, not those the old table occupies.
-/

namespace Vmlab.Disk.Qcow2

open Library List
open SnapshotEntry (paddedSize)

variable {count size : Nat}

theorem lt_divCeil (positive : 0 < size) (index : Nat) : index < divCeil count size ↔ index * size < count := by
  rw [divCeil, Nat.lt_iff_add_one_le, Nat.le_div_iff_mul_le positive, Nat.add_mul]
  omega

section

variable (geometry : Geometry) (entry : Entry)

def compressedEnd : Nat :=
  let (offset, additional) := compressedExtent geometry entry
  (offset / 512 + additional + 1) * 512

/-- The cluster holds a byte of the compressed data. -/
def UsesCluster (cluster : Nat) : Prop :=
  ∃ position, (compressedExtent geometry entry).1 ≤ position ∧ position < compressedEnd geometry entry ∧
    position / geometry.clusterSize = cluster

def usedClusters : List Nat :=
  let first := (compressedExtent geometry entry).1 / geometry.clusterSize
  List.range' first (divCeil (compressedEnd geometry entry) geometry.clusterSize - first)

/-- The end that the refcounts follow is the end of the last sector, or past it
when the data starts inside a sector. -/
def EndsTogether : Prop :=
  (compressedExtent geometry entry).1 % 512 = 0 ∨ compressedEnd geometry entry % geometry.clusterSize ≠ 0

theorem readCompressedCluster_eq : readCompressedCluster geometry entry = (do
    let start := (compressedExtent geometry entry).1
    let stream ← readFile start (compressedEnd geometry entry - start)
    match geometry.host.inflate stream geometry.clusterSize with
    | some bytes => pure (bytes.take geometry.clusterSize ++ replicate (geometry.clusterSize - bytes.length) 0)
    | none => throw (.format .deflate)) := rfl

end

variable {cluster : Nat}

section

variable {geometry : Geometry} {entry : Entry}

theorem start_lt_compressedEnd (geometry : Geometry) (entry : Entry) :
    (compressedExtent geometry entry).1 < compressedEnd geometry entry := by
  simp only [compressedEnd]
  omega

theorem usesCluster_iff : UsesCluster geometry entry cluster ↔
      (compressedExtent geometry entry).1 / geometry.clusterSize ≤ cluster ∧
        cluster * geometry.clusterSize < compressedEnd geometry entry := by
  have positive := geometry.clusterSize_pos
  have below := start_lt_compressedEnd geometry entry
  constructor
  · rintro ⟨position, start, inside, rfl⟩
    exact ⟨Nat.div_le_div_right start, Nat.lt_of_le_of_lt (Nat.div_mul_le_self ..) inside⟩
  rintro ⟨first, last⟩
  -- The first byte that the cluster and the data have in common.
  by_cases later : (compressedExtent geometry entry).1 ≤ cluster * geometry.clusterSize
  · exact ⟨_, later, last, Nat.mul_div_cancel _ positive⟩
  · refine ⟨_, le_rfl, below, Nat.le_antisymm first ?_⟩
    exact (Nat.le_div_iff_mul_le positive).mpr (by omega)

theorem mem_compressedClusters : cluster ∈ compressedClusters geometry entry ↔
      (compressedExtent geometry entry).1 / geometry.clusterSize ≤ cluster ∧
        cluster * geometry.clusterSize <
          compressedEnd geometry entry + (compressedExtent geometry entry).1 % 512 := by
  have positive := geometry.clusterSize_pos
  have sectors : compressedEnd geometry entry + (compressedExtent geometry entry).1 % 512 =
      (compressedExtent geometry entry).1 + ((compressedExtent geometry entry).2 + 1) * 512 := by
    simp only [compressedEnd]
    omega
  rw [sectors, ← lt_divCeil positive]
  simp only [compressedClusters, mem_range'_1]
  omega

theorem mem_usedClusters : cluster ∈ usedClusters geometry entry ↔ UsesCluster geometry entry cluster := by
  rw [usesCluster_iff, ← lt_divCeil geometry.clusterSize_pos]
  simp only [usedClusters, mem_range'_1]
  omega

theorem counted_iff_used (supported : geometry.Supported) :
    (∀ cluster, cluster ∈ compressedClusters geometry entry ↔ UsesCluster geometry entry cluster) ↔
      EndsTogether geometry entry := by
  simp only [mem_compressedClusters, usesCluster_iff]
  have below := start_lt_compressedEnd geometry entry
  constructor
  · intro same
    by_contra apart
    obtain ⟨inside, boundary⟩ := not_or.mp apart
    rw [not_not] at boundary
    have last := Nat.div_mul_cancel (Nat.dvd_of_mod_eq_zero boundary)
    have counted := (same (compressedEnd geometry entry / geometry.clusterSize)).mp
      ⟨Nat.div_le_div_right below.le, by omega⟩
    omega
  intro together cluster
  refine and_congr_right fun _ => ⟨fun counted => ?_, fun used => by omega⟩
  rcases together with aligned | boundary
  · omega
  obtain ⟨factor, size⟩ := supported.dvd_clusterSize
  have sector : cluster * geometry.clusterSize = 512 * (cluster * factor) := by
    rw [size, Nat.mul_left_comm]
  have reach : compressedEnd geometry entry % 512 = 0 := by
    simp only [compressedEnd]
    omega
  have differ : cluster * geometry.clusterSize ≠ compressedEnd geometry entry := by
    intro same
    exact boundary (same ▸ Nat.mul_mod_left ..)
  omega

theorem EndsTogether.clusters (supported : geometry.Supported) (together : EndsTogether geometry entry) :
    compressedClusters geometry entry = usedClusters geometry entry := by
  have same := (counted_iff_used supported).mpr together
  simp only [← mem_usedClusters] at same
  simp only [compressedClusters, usedClusters, mem_range'_1] at same ⊢
  generalize (compressedExtent geometry entry).1 / geometry.clusterSize = first at same ⊢
  congr 1
  generalize divCeil _ geometry.clusterSize - first = counted at same ⊢
  generalize divCeil _ geometry.clusterSize - first = used at same ⊢
  have left := same (first + counted)
  have right := same (first + used)
  omega

end

section

variable {geometry : Geometry} {store : Store} {fuel : Nat} {delta : Delta}

structure Moved (geometry : Geometry) (store after : Store) (touched : List Nat) : Prop
    extends SameTable store after where
  coherent : Coherent geometry after
  changed : ∀ cluster, after.refcount geometry cluster ≠ store.refcount geometry cluster ↔ cluster ∈ touched

theorem setCounted_ends (supported : geometry.Supported) {middle : Store} {value : Nat}
    (counted : Coherent.Counted geometry store middle) (covered : store.Covered geometry cluster)
    (small : value < 2 ^ geometry.refcountBits) : Ends (setClusterRefcount geometry fuel cluster value) middle
      (fun _ after => Recounted geometry store after cluster value) fun _ _ => ¬(geometry.Writes store ∧ 2 ≤ fuel) := by
  have covered : middle.Covered geometry cluster := by
    rw [Store.Covered, counted.toSameTable.blockHost]
    exact covered
  refine (setClusterRefcount_ends supported counted.coherent covered small).mono (fun _ after recounted => ?_) ?_
  · refine ⟨counted.toStill.trans recounted.toStill, recounted.coherent, recounted.l2.trans counted.l2, ?_, ?_,
      fun other => ?_⟩
    · rw [recounted.free, counted.free]
    · rw [recounted.scanNext, counted.free]
    · rw [recounted.refcount, counted.refcount]
  · exact fun _ _ blocked may => blocked ⟨⟨may.1.1, counted.length ▸ may.1.2⟩, may.2⟩

section

variable (supported : geometry.Supported) (coherent : Coherent geometry store)
include supported coherent

theorem adjustOne_spec (covered : store.Covered geometry cluster) :
    Ensures (adjustOne geometry fuel delta cluster) store fun _ after => Moved geometry store after [cluster] := by
  -- Either direction reads the refcount and sets another one.
  have moves (value : Nat) (differ : value ≠ store.refcount geometry cluster) (after : Store)
      (recounted : Recounted geometry store after cluster value) : Moved geometry store after [cluster] := by
    refine ⟨recounted.toSameTable, recounted.coherent, fun other => ?_⟩
    rw [recounted.refcount, mem_singleton]
    split
    · next same => exact ⟨fun _ => same, fun _ => same ▸ differ⟩
    · next other' => exact ⟨fun changed => absurd rfl changed, fun same => absurd same other'⟩
  have small := store.refcount_lt supported cluster
  cases delta with
  | up =>
    refine .bind (Coherent.getRefcount_ends coherent cluster).ensures ?_
    rintro _ middle ⟨rfl, counted⟩
    refine .ite (fun _ => .throw) fun room => ?_
    exact (setCounted_ends supported counted covered (Ledger.lt_of_lt_refcountMax room)).ensures.mono fun _ =>
      moves _ (by omega)
  | down =>
    refine .bind (Coherent.getRefcount_ends coherent cluster).ensures ?_
    rintro _ middle ⟨rfl, counted⟩
    refine .ite (fun _ => .throw) fun some => ?_
    exact (setCounted_ends supported counted covered (by omega)).ensures.mono fun _ => moves _ (by omega)

theorem adjustAll_spec {clusters : List Nat}
    (covered : ∀ cluster ∈ clusters, store.Covered geometry cluster) (distinct : clusters.Nodup) :
    Ensures (clusters.forM (adjustOne geometry fuel delta)) store fun _ after =>
      Moved geometry store after clusters := by
  apply Ensures.mono
  · apply Ensures.forM fun remaining state => ∃ done, clusters = done ++ remaining ∧ Moved geometry store state done
    · exact ⟨[], rfl, .refl store, coherent, fun _ => by simp⟩
    rintro first rest state ⟨done, split, moved⟩
    have here : state.Covered geometry first := by
      rw [Store.Covered, moved.toSameTable.blockHost]
      exact covered first (by simp [split])
    have fresh : first ∉ done := fun member => by
      rw [split] at distinct
      exact disjoint_of_nodup_append distinct member mem_cons_self
    refine (adjustOne_spec supported moved.coherent here).mono fun _ after next => ?_
    refine ⟨done ++ [first], by simp [split], moved.toSameTable.trans next.toSameTable, next.coherent, fun other => ?_⟩
    rw [mem_append, ← moved.changed, ← next.changed]
    by_cases same : other = first
    · subst same
      have before : state.refcount geometry other = store.refcount geometry other :=
        not_not.mp fun changed => fresh ((moved.changed other).mp changed)
      rw [before]
      simp
    have kept : after.refcount geometry other = state.refcount geometry other :=
      not_not.mp fun changed => same (mem_singleton.mp ((next.changed other).mp changed))
    rw [kept]
    simp
  · rintro _ after ⟨done, split, moved⟩
    rw [append_nil] at split
    exact split ▸ moved

theorem adjustCompressedRefcounts_spec
    {entry : Entry} (covered : ∀ cluster ∈ compressedClusters geometry entry, store.Covered geometry cluster) :
    Ensures (adjustCompressedRefcounts geometry fuel entry delta) store fun _ after =>
      Moved geometry store after (compressedClusters geometry entry) :=
  adjustAll_spec supported coherent covered nodup_range'

end

/-- The refcounts that follow a compressed descriptor are those of the clusters
it uses, as long as its data starts on a sector or does not end with a cluster. -/
theorem compressed_refcounts_iff (supported : geometry.Supported) (coherent : Coherent geometry store)
    {entry : Entry} (covered : ∀ cluster ∈ compressedClusters geometry entry, store.Covered geometry cluster)
    {after : Store} (adjusted : adjustCompressedRefcounts geometry fuel entry delta store = .ok () after) :
    (∀ cluster, after.refcount geometry cluster ≠ store.refcount geometry cluster ↔
        UsesCluster geometry entry cluster) ↔ EndsTogether geometry entry := by
  have moved := adjustCompressedRefcounts_spec supported coherent covered () after adjusted
  simp only [moved.changed]
  exact counted_iff_used supported

end

/-- An image with clusters of 512 bytes: a header, the refcount table, two data
clusters and the refcount block that counts each of them once. -/
def packedGeometry : Geometry where
  host := { maxFileLen := 1048576, inflate := fun _ _ => none, decode := id, openBacking := fun _ => throw .io }
  readOnly := false
  version := 3
  clusterBits := 9
  refcountBits := 16

def packedStore : Store where
  file := (File.zeros 2560).patch 2048 [0, 1, 0, 1, 0, 1, 0, 1, 0, 1]
  refcountTableOffset := 512
  refcountTableClusters := 1
  refcountTable := [2048]
  l2Cache := .new 4
  refblockCache := .new 4
  free := { set := .empty, scanNext := 0 }
  headerDirty := false
  refcountTableDirty := false

/-- A store that has nothing cached and one refcount block. -/
theorem coherent_of_one {geometry : Geometry} {store : Store} (l2 : ∀ key, store.l2Cache.find? key = none)
    (blocks : ∀ key, store.refblockCache.find? key = none)
    (first : ∀ {tableIndex}, store.blockHost tableIndex ≠ 0 → tableIndex = 0)
    (host : geometry.clusterSize ∣ store.blockHost 0 ∧ store.blockHost 0 + geometry.clusterSize ≤ store.file.length) :
    Coherent geometry store := by
  have empty {cache : TableCache} (none : ∀ key, cache.find? key = none) (home : Nat → Nat) :
      Tables geometry home cache.map store.file :=
    ⟨fun key _ _ held => (nomatch (none key).symm.trans held), fun key _ held => absurd (none key) held⟩
  refine ⟨empty l2 id, empty blocks _, fun key held => absurd (blocks key) held, fun _ present => first present ▸ host,
    fun left right held same => ?_, fun key _ held => absurd (l2 key) held⟩
  rw [first held, first (same.trans_ne held)]

theorem packedStore_coherent : Coherent packedGeometry packedStore :=
  coherent_of_one (fun _ => rfl) (fun _ => rfl)
    (fun present => Nat.lt_one_iff.mp (Store.lt_length_of_blockHost present)) (by decide)

/-- Compressed data that fills the first of the two data clusters. -/
theorem compressed_refcounts_sector :
    ∃ after, adjustCompressedRefcounts packedGeometry 2 (compressedBit ||| 1024) .down packedStore = .ok () after ∧
      ∀ cluster, after.refcount packedGeometry cluster ≠ packedStore.refcount packedGeometry cluster ↔
        UsesCluster packedGeometry (compressedBit ||| 1024) cluster := by
  obtain ⟨_, after, run, runs⟩ := @run_of_passes _ _ _ (adjustCompressedRefcounts packedGeometry 2 (compressedBit ||| 1024) .down) packedStore
    (fun _ _ => true) (by decide +kernel)
  have covered : ∀ cluster ∈ compressedClusters packedGeometry (compressedBit ||| 1024),
      packedStore.blockHost (cluster / packedGeometry.refblockEntries) ≠ 0 := by decide +kernel
  exact ⟨after, run, (compressed_refcounts_iff ⟨by decide, by decide, .sixteen⟩ packedStore_coherent
    covered run).mpr (.inl (by decide))⟩

/-- The same data one byte later, up to the end of its cluster: giving it up
frees the next cluster as well. -/
theorem compressed_refcounts_free_neighbour :
    ∃ after, adjustCompressedRefcounts packedGeometry 2 (compressedBit ||| 1025) .down packedStore = .ok () after ∧
      packedStore.refcount packedGeometry 3 = 1 ∧ after.refcount packedGeometry 3 = 0 ∧
      ¬UsesCluster packedGeometry (compressedBit ||| 1025) 3 := by
  obtain ⟨_, after, run, runs⟩ := @run_of_passes _ _ _ (adjustCompressedRefcounts packedGeometry 2 (compressedBit ||| 1025) .down) packedStore
    (fun _ after => decide (after.refcount packedGeometry 3 = 0)) (by decide +kernel)
  refine ⟨after, run, by decide +kernel, of_decide_eq_true runs, ?_⟩
  rw [usesCluster_iff]
  decide

/-! ### Counting by one -/

section

variable {geometry : Geometry} {store : Store} {fuel : Nat}

/-- Refcounts are stored and moved exactly: what is set is read back and
nothing else changes, and only the width's maximum and zero stop a count. -/
structure CountsByOne (geometry : Geometry) (fuel : Nat) (store : Store) (cluster : Nat) : Prop where
  packed : ∀ block index value, value < 2 ^ geometry.refcountBits →
    (index + 1) * geometry.refcountBits ≤ block.length * 8 → ∀ other,
    bitsGet (bitsSet block index geometry.refcountBits value) other geometry.refcountBits =
      if other = index then value else bitsGet block other geometry.refcountBits
  inc : Ends (incRefcount geometry fuel cluster) store
    (fun _ after => ∀ other,
      after.refcount geometry other = store.refcount geometry other + if other = cluster then 1 else 0)
    fun error _ => error = .unsupported (.refcountOverflow cluster) ∧
      store.refcount geometry cluster = 2 ^ geometry.refcountBits - 1
  dec : Ends (decRefcount geometry fuel cluster) store
    (fun _ after => ∀ other,
      (after.refcount geometry other + if other = cluster then 1 else 0) = store.refcount geometry other)
    fun error _ => error = .format (.refcountUnderflow cluster) ∧ store.refcount geometry cluster = 0

theorem CountsByOne.maximal (counts : CountsByOne geometry fuel store cluster)
    (fails : (match incRefcount geometry fuel cluster store with
      | .ok _ _ => false
      | .error _ _ => true) = true) : store.refcount geometry cluster = 2 ^ geometry.refcountBits - 1 := by
  obtain ⟨_, inc, _⟩ := counts
  unfold Ends at inc
  split at inc
  · next run =>
    rw [run] at fails
    cases fails
  · exact inc.2

variable (supported : geometry.Supported) (covered : store.Covered geometry cluster)
  (coherent : Coherent geometry store) (writes : geometry.Writes store)
include supported covered coherent writes

theorem incRefcount_ends : Ends (incRefcount geometry (fuel + 2) cluster) store
      (fun _ after => ¬geometry.refcountMax ≤ store.refcount geometry cluster ∧ ∀ other,
        after.refcount geometry other = store.refcount geometry other + if other = cluster then 1 else 0)
      fun error _ => error = .unsupported (.refcountOverflow cluster) ∧
        geometry.refcountMax ≤ store.refcount geometry cluster := by
  refine .bind ((Coherent.getRefcount_ends coherent cluster).monoBad fun _ _ blocked => absurd writes blocked) ?_
  rintro _ middle ⟨rfl, counted⟩
  refine .ite (fun full => .throw ⟨rfl, full⟩) fun room => ?_
  refine (setCounted_ends supported counted covered (Ledger.lt_of_lt_refcountMax room)).mono
    (fun _ after set => ⟨room, fun other => ?_⟩) fun _ _ blocked => absurd ⟨writes, by omega⟩ blocked
  rw [set.refcount]
  split
  · next same => rw [same]
  · rfl

/-- The maximum of 64-bit refcounts is computed by a shift that leaves the bit
where it is, so that every count is taken as full. -/
theorem countsByOne_iff (fuel : Nat) : CountsByOne geometry (fuel + 2) store cluster ↔
      (geometry.refcountBits = 64 → store.refcount geometry cluster = 2 ^ 64 - 1) := by
  have inc := @incRefcount_ends _ _ _ fuel supported covered coherent writes
  constructor
  · intro exact wide
    have both := inc.and exact.inc
    unfold Ends at both
    split at both
    · have none : geometry.refcountMax = 0 := by simp [Geometry.refcountMax, wide]
      omega
    · rw [both.2.2, wide]
  intro narrow
  have small := store.refcount_lt supported cluster
  refine ⟨fun _ _ _ => bitsGet_bitsSet supported.width, inc.mono (fun _ _ changed => changed.2) ?_, ?_⟩
  · refine fun error _ full => ⟨full.1, ?_⟩
    by_cases wide : geometry.refcountBits = 64
    · rw [narrow wide, wide]
    have most := full.2
    have short := Nat.le_of_dvd (by decide) supported.width.dvd
    rw [Geometry.refcountMax, Nat.mod_eq_of_lt (by omega)] at most
    omega
  refine .bind ((Coherent.getRefcount_ends coherent cluster).monoBad fun _ _ blocked => absurd writes blocked) ?_
  rintro _ middle ⟨rfl, counted⟩
  refine .ite (fun none => .throw ⟨rfl, none⟩) fun some => ?_
  refine (setCounted_ends supported counted covered (by omega)).mono
    (fun _ after set other => ?_) fun _ _ blocked => absurd ⟨writes, by omega⟩ blocked
  rw [set.refcount]
  split
  · next same =>
    subst same
    omega
  · rfl

end

/-- With 16-bit refcounts a count of one goes up and down. -/
theorem countsByOne_packed : CountsByOne packedGeometry 2 packedStore 3 := by
  have covered : packedStore.blockHost (3 / packedGeometry.refblockEntries) ≠ 0 := by decide +kernel
  refine (countsByOne_iff ⟨by decide, by decide, .sixteen⟩ covered packedStore_coherent ⟨rfl, by decide⟩ 0).mpr ?_
  intro wide
  cases wide

def wideCounts : Geometry := { packedGeometry with refcountBits := 64 }

def countedOnce : Store := { packedStore with file := (File.zeros 2560).patch 2048 [0, 0, 0, 0, 0, 0, 0, 1] }

/-- With 64-bit refcounts a count of one does not go up. -/
theorem one_not_countsByOne : countedOnce.refcount wideCounts 0 = 1 ∧ ¬CountsByOne wideCounts 2 countedOnce 0 := by
  have one : countedOnce.refcount wideCounts 0 = 1 := by decide +kernel
  exact ⟨one, fun counts => absurd (one.symm.trans (counts.maximal (by decide +kernel))) (by decide)⟩

/-! ### The clusters of the snapshot table -/

def entrySpan (file : File) (offset : Nat) : Nat :=
  let fixed := file.read offset 40
  let field (start width : Nat) := bigEndian (window fixed start width)
  divCeil (40 + field 36 4 + field 12 2 + field 14 2) 8 * 8

def tableSpan (file : File) : Nat → Nat → Nat
  | 0, _ => 0
  | count + 1, offset => entrySpan file offset + tableSpan file count (offset + entrySpan file offset)

section

variable (geometry : Geometry) (image : Image)

/-- The cluster holds a byte of the snapshot table. -/
def OccupiedByTable (cluster : Nat) : Prop :=
  ∃ position, image.snapshotsOffset ≤ position ∧
    position < image.snapshotsOffset + tableSpan image.store.file image.nbSnapshots image.snapshotsOffset ∧
    position / geometry.clusterSize = cluster

/-- The clusters that a rewrite gives up. -/
def releasedClusters (entries : List SnapshotEntry) : List Nat :=
  List.range' (image.snapshotsOffset / geometry.clusterSize)
    (if image.snapshotsOffset = 0 then 0
      else max (divCeil (entries.map paddedSize).sum geometry.clusterSize) 1)

/-- Write the table to a new region and give up one reference on each of these
clusters. -/
def rewriteReleasing (fuel : Nat) (entries : List SnapshotEntry) (released : List Nat) : DiskM Unit := do
  let bytes := entries.flatMap SnapshotEntry.serialize
  if bytes = [] then do
    modify fun image => { image with nbSnapshots := 0, snapshotsOffset := 0 }.markHeader
    liftM (released.forM (decRefcount geometry fuel))
  else do
    let newOffset ← writeRegion geometry fuel (divCeil bytes.length geometry.clusterSize) bytes
    liftM (released.forM (decRefcount geometry fuel))
    modify fun image =>
      { image with nbSnapshots := entries.length % 2 ^ 32, snapshotsOffset := newOffset }.markHeader

/-- There is a table exactly when there are entries, and they fill as many
clusters as they would if they were written today. -/
def Measured (entries : List SnapshotEntry) : Prop :=
  (image.snapshotsOffset = 0 ↔ entries = []) ∧
    divCeil (tableSpan image.store.file image.nbSnapshots image.snapshotsOffset) geometry.clusterSize =
      divCeil (entries.map paddedSize).sum geometry.clusterSize

end

section

variable {geometry : Geometry} {store : Store}

theorem parseEntry_spec (offset : Nat) : Ensures (parseEntry geometry offset) store fun parsed after =>
      after = store ∧ parsed.2 = offset + entrySpan store.file offset := by
  refine .bind (readFile_ends store offset 40).ensures ?_
  rintro _ _ ⟨rfl, _, rfl⟩
  dsimp only
  refine .bind (readFile_ends _ _ _).ensures ?_
  rintro _ _ ⟨_, _, rfl⟩
  refine .bind (readFile_ends _ _ _).ensures ?_
  rintro _ _ ⟨_, _, rfl⟩
  exact .pure ⟨rfl, rfl⟩

theorem parseEntries_spec (count offset : Nat) :
    Ensures (parseEntries geometry count offset) store fun entries after =>
      after = store ∧ entries.length = count := by
  induction count generalizing offset with
  | zero => exact .pure ⟨rfl, rfl⟩
  | succ count ih =>
    refine .bind (parseEntry_spec offset) ?_
    rintro ⟨entry, next⟩ _ ⟨rfl, _⟩
    refine .bind (ih next) ?_
    rintro entries _ ⟨rfl, length⟩
    exact .pure ⟨rfl, by rw [length_cons, length]⟩

theorem parseTable_spec (image : Image) :
    Ensures (parseTable geometry) image fun entries after => after = image ∧ entries.length = image.nbSnapshots := by
  apply Ensures.getThen
  refine .zoom ((parseEntries_spec _ _).mono ?_)
  rintro entries _ ⟨rfl, length⟩
  exact ⟨rfl, length⟩

end

section

variable {geometry : Geometry} {image : Image} {entries : List SnapshotEntry}

theorem entrySpan_pos (file : File) (offset : Nat) : 0 < entrySpan file offset := by
  unfold entrySpan divCeil
  dsimp only
  omega

theorem tableSpan_pos (file : File) (some : count ≠ 0) (offset : Nat) : 0 < tableSpan file count offset := by
  cases count with
  | zero => exact absurd rfl some
  | succ count => exact Nat.lt_of_lt_of_le (entrySpan_pos file offset) (Nat.le_add_right ..)

theorem paddedSize_pos (entry : SnapshotEntry) : 0 < entry.paddedSize := by
  unfold paddedSize divCeil
  omega

theorem rewriteSnapshotTable_eq (parsed : parseTable geometry image = .ok entries image) (fuel : Nat)
    (next : List SnapshotEntry) : rewriteSnapshotTable geometry fuel next image =
      rewriteReleasing geometry fuel next (releasedClusters geometry image entries) image := by
  have measured : (if image.snapshotsOffset = 0 then pure 0 else oldSnapshotTableClusters geometry : DiskM Nat) image =
      .ok (if image.snapshotsOffset = 0 then 0
        else max (divCeil (entries.map paddedSize).sum geometry.clusterSize) 1) image := by
    split
    · rfl
    · rw [oldSnapshotTableClusters, run_bind parsed]
      rfl
  exact run_bind measured

theorem divCeil_eq_zero (positive : 0 < size) : divCeil count size = 0 ↔ count = 0 := by
  have lower : 0 < divCeil count size ↔ 0 * size < count := lt_divCeil positive 0
  omega

theorem occupiedByTable_iff (aligned : image.nbSnapshots ≠ 0 → geometry.clusterSize ∣ image.snapshotsOffset) :
    OccupiedByTable geometry image cluster ↔
      cluster ∈ List.range' (image.snapshotsOffset / geometry.clusterSize)
        (divCeil (tableSpan image.store.file image.nbSnapshots image.snapshotsOffset) geometry.clusterSize) := by
  have positive := geometry.clusterSize_pos
  by_cases none : image.nbSnapshots = 0
  · rw [OccupiedByTable, none, tableSpan, (divCeil_eq_zero positive).mpr rfl]
    simp only [range'_zero, not_mem_nil, iff_false]
    rintro ⟨position, start, inside, _⟩
    omega
  obtain ⟨first, offset⟩ := aligned none
  rw [Nat.mul_comm] at offset
  rw [OccupiedByTable, mem_range'_1, offset, Nat.mul_div_cancel _ positive]
  constructor
  · rintro ⟨position, start, inside, rfl⟩
    have low := (Nat.le_div_iff_mul_le positive).mpr start
    refine ⟨low, ?_⟩
    have below : position / geometry.clusterSize - first <
        divCeil (tableSpan image.store.file image.nbSnapshots (first * geometry.clusterSize)) geometry.clusterSize := by
      rw [lt_divCeil positive, Nat.sub_mul]
      have := Nat.div_mul_le_self position geometry.clusterSize
      omega
    omega
  rintro ⟨low, high⟩
  have start := Nat.mul_le_mul_right geometry.clusterSize low
  have inside := (lt_divCeil positive (cluster - first)).mp (by omega : cluster - first <
    divCeil (tableSpan image.store.file image.nbSnapshots (first * geometry.clusterSize)) geometry.clusterSize)
  rw [Nat.sub_mul] at inside
  exact ⟨cluster * geometry.clusterSize, start, by omega, Nat.mul_div_cancel _ positive⟩

theorem range'_same_members {start left right : Nat} :
    (∀ cluster, cluster ∈ List.range' start left ↔ cluster ∈ List.range' start right) ↔ left = right := by
  refine ⟨fun same => ?_, fun equal _ => by rw [equal]⟩
  have fromLeft := same (start + right)
  have fromRight := same (start + left)
  simp only [mem_range'_1] at fromLeft fromRight
  omega

theorem sum_paddedSize_eq_zero : (entries.map paddedSize).sum = 0 ↔ entries = [] := by
  cases entries with
  | nil => simp
  | cons entry entries =>
    have := paddedSize_pos entry
    simp only [map_cons, sum_cons, reduceCtorEq, iff_false]
    omega

end

def storedEntry (extra nameLen : Nat) : List UInt8 :=
  List.replicate 12 0 ++ toBigEndian 2 1 ++ toBigEndian 2 nameLen ++ List.replicate 20 0 ++ toBigEndian 4 extra ++
    List.replicate extra 0 ++ [49] ++ List.replicate nameLen 97

def oneSnapshot (extra nameLen : Nat) : Image where
  store := { packedStore with
    file := ((File.zeros 3072).patch 1024 [0, 1, 0, 1, 0, 1, 0, 1, 0, 1, 0, 1]).patch 2048 (storedEntry extra nameLen)
    refcountTable := [1024] }
  size := 512
  l1Size := 1
  l1TableOffset := 1536
  nbSnapshots := 1
  snapshotsOffset := 2048
  headerCluster := []
  backing := none
  backingImage := none
  l1 := [0]
  l1Dirty := false

end Vmlab.Disk.Qcow2
