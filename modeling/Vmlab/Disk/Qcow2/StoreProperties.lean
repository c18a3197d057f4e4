import Vmlab.Disk.Qcow2.WriteBack

/-!
# The store as its users see it

Clusters and refcounts with the changes that the caches hold. Loading a table
or a refcount block changes none of them, whatever it evicts.
-/

namespace Vmlab.Disk.Qcow2

open Library
open TableCache (Settles find? put_settles)

variable {after : Store} {l2Cache : TableCache}

namespace Store

variable (geometry : Geometry) (store : Store)

def content (cluster : Nat) : List UInt8 :=
  currentTable geometry id store.l2Cache.map store.file (cluster * geometry.clusterSize)

def block (tableIndex : Nat) : List UInt8 :=
  currentTable geometry store.blockHost store.refblockCache.map store.file tableIndex

def refcount (cluster : Nat) : Nat :=
  let rbe := geometry.refblockEntries
  if store.blockHost (cluster / rbe) = 0 then 0
  else bitsGet (store.block geometry (cluster / rbe)) (cluster % rbe) geometry.refcountBits

def IsBlock (cluster : Nat) : Prop :=
  ∃ tableIndex, store.blockHost tableIndex ≠ 0 ∧ store.blockHost tableIndex = cluster * geometry.clusterSize

/-- A refcount block covers the cluster. -/
def Covered (cluster : Nat) : Prop := store.blockHost (cluster / geometry.refblockEntries) ≠ 0

end Store

variable {geometry : Geometry}

/-- Both caches agree with the file, and every refcount block has a cluster of
its own. -/
structure Coherent (geometry : Geometry) (store : Store) : Prop where
  l2 : Tables geometry id store.l2Cache.map store.file
  blocks : Tables geometry store.blockHost store.refblockCache.map store.file
  allocated : ∀ tableIndex, store.refblockCache.find? tableIndex ≠ none → store.blockHost tableIndex ≠ 0
  hosts : ∀ tableIndex, store.blockHost tableIndex ≠ 0 → geometry.clusterSize ∣ store.blockHost tableIndex ∧
    store.blockHost tableIndex + geometry.clusterSize ≤ store.file.length
  distinct : ∀ left right, store.blockHost left ≠ 0 → store.blockHost right = store.blockHost left → right = left
  apart : ∀ host tableIndex, store.l2Cache.find? host ≠ none → store.blockHost tableIndex ≠ 0 →
    store.blockHost tableIndex ≠ host

structure SameTable (store after : Store) : Prop where
  table : after.refcountTable = store.refcountTable
  offset : after.refcountTableOffset = store.refcountTableOffset
  clusters : after.refcountTableClusters = store.refcountTableClusters

theorem SameTable.refl (store : Store) : SameTable store store := ⟨rfl, rfl, rfl⟩

variable {second first third : Store}

theorem SameTable.trans (left : SameTable first second) (right : SameTable second third) : SameTable first third :=
  ⟨right.table.trans left.table, right.offset.trans left.offset, right.clusters.trans left.clusters⟩

theorem SameTable.blockHost {store : Store} (same : SameTable store after) (tableIndex : Nat) :
    after.blockHost tableIndex = store.blockHost tableIndex := by
  rw [Store.blockHost, Store.blockHost, same.table]

theorem SameTable.isBlock {store : Store} (same : SameTable store after) {cluster : Nat} :
    after.IsBlock geometry cluster ↔ store.IsBlock geometry cluster := by
  simp only [Store.IsBlock, same.blockHost]

structure Still (geometry : Geometry) (store after : Store) : Prop extends SameTable store after where
  length : after.file.length = store.file.length
  content : ∀ cluster, ¬store.IsBlock geometry cluster → after.content geometry cluster = store.content geometry cluster

theorem Still.refl (store : Store) : Still geometry store store := ⟨SameTable.refl store, rfl, fun _ _ => rfl⟩

theorem Still.trans (left : Still geometry first second)
    (right : Still geometry second third) : Still geometry first third where
  toSameTable := left.toSameTable.trans right.toSameTable
  length := right.length.trans left.length
  content cluster plain := by
    rw [right.content cluster fun isBlock => plain (left.toSameTable.isBlock.mp isBlock), left.content cluster plain]

structure Quiet (geometry : Geometry) (store after : Store) : Prop extends Still geometry store after where
  free : after.free = store.free
  refcount : ∀ cluster, after.refcount geometry cluster = store.refcount geometry cluster

theorem Quiet.refl (store : Store) : Quiet geometry store store := ⟨Still.refl store, rfl, fun _ => rfl⟩

theorem Store.refcount_congr {store : Store} (same : SameTable store after)
    (blocks : ∀ tableIndex, store.blockHost tableIndex ≠ 0 →
    after.block geometry tableIndex = store.block geometry tableIndex) (cluster : Nat) :
    after.refcount geometry cluster = store.refcount geometry cluster := by
  simp only [refcount, same.blockHost]
  split
  · rfl
  · next present => rw [blocks _ present]

theorem Store.refcount_eq_zero {store : Store} {cluster : Nat} (uncovered : ¬store.Covered geometry cluster) :
    store.refcount geometry cluster = 0 := by
  rw [refcount]
  exact if_pos (not_not.mp uncovered)

namespace Coherent

variable {store : Store}

theorem content_eq_read {store : Store} {cluster : Nat} (absent : store.l2Cache.find? (cluster * geometry.clusterSize) = none) :
    store.content geometry cluster = store.file.read (cluster * geometry.clusterSize) geometry.clusterSize :=
  currentTable_of_none absent

variable {file : File}

section

variable (coherent : Coherent geometry store)
include coherent

theorem length_content (cluster : Nat) : (store.content geometry cluster).length = geometry.clusterSize := by
  cases found : store.l2Cache.map.get? (cluster * geometry.clusterSize) with
  | none => rw [Store.content, currentTable_of_none found, File.length_read]
  | some entry =>
    rw [Store.content, currentTable_of_some found]
    exact (coherent.l2.cached _ _ _ found).length

theorem length_block (tableIndex : Nat) : (store.block geometry tableIndex).length = geometry.clusterSize := by
  cases found : store.refblockCache.map.get? tableIndex with
  | none => rw [Store.block, currentTable_of_none found, File.length_read]
  | some entry =>
    rw [Store.block, currentTable_of_some found]
    exact (coherent.blocks.cached _ _ _ found).length

theorem replace_l2 (l2 : Tables geometry id l2Cache.map file) (length : file.length = store.file.length)
    (blocks : ∀ tableIndex, store.blockHost tableIndex ≠ 0 →
    file.read (store.blockHost tableIndex) geometry.clusterSize =
    store.file.read (store.blockHost tableIndex) geometry.clusterSize)
    (apart : ∀ host tableIndex, l2Cache.find? host ≠ none → store.blockHost tableIndex ≠ 0 →
    store.blockHost tableIndex ≠ host) : Coherent geometry { store with l2Cache, file } ∧
      ∀ tableIndex, store.blockHost tableIndex ≠ 0 →
        Store.block geometry { store with l2Cache, file } tableIndex = store.block geometry tableIndex := by
  refine ⟨⟨l2, ?_, coherent.allocated, ?_, coherent.distinct, apart⟩, ?_⟩
  · exact coherent.blocks.congr_file length.ge fun tableIndex cached => blocks tableIndex (coherent.allocated _ cached)
  · intro tableIndex present
    obtain ⟨aligned, inFile⟩ := coherent.hosts tableIndex present
    exact ⟨aligned, length ▸ inFile⟩
  intro tableIndex present
  simp only [Store.block, currentTable]
  split
  · rfl
  · exact blocks tableIndex present

theorem map_l2 (l2 : Tables geometry id l2Cache.map store.file)
    (apart : ∀ host, l2Cache.find? host ≠ none → store.l2Cache.find? host ≠ none) :
    Coherent geometry { store with l2Cache } :=
  (coherent.replace_l2 l2 rfl (fun _ _ => rfl) fun host tableIndex cached =>
    coherent.apart host tableIndex (apart host cached)).1

end

variable {written : File} {loaded : TableCache} {tables : List (Nat × List UInt8)}
  {left : SortedMap Nat (List UInt8 × Bool)}

section

variable {cluster : Nat}

structure LoadedL2 (geometry : Geometry) (store after : Store) (cluster : Nat) : Prop
    extends Quiet geometry store after where
  coherent : Coherent geometry after
  refblocks : after.refblockCache = store.refblockCache
  cached : ∃ dirty, after.l2Cache.find? (cluster * geometry.clusterSize) =
    some (store.content geometry cluster, dirty)
  keys : ∀ host, after.l2Cache.find? host ≠ none →
    host = cluster * geometry.clusterSize ∨ store.l2Cache.find? host ≠ none

theorem loadL2_cached (coherent : Coherent geometry store) {entry : List UInt8 × Bool}
    (found : store.l2Cache.find? (cluster * geometry.clusterSize) = some entry) :
    LoadedL2 geometry store { store with l2Cache := store.l2Cache.touch (cluster * geometry.clusterSize) } cluster where
  table := rfl
  offset := rfl
  clusters := rfl
  length := rfl
  content _ _ := rfl
  free := rfl
  refcount _ := rfl
  coherent := coherent.map_l2 coherent.l2 fun _ cached => cached
  refblocks := rfl
  cached := by
    refine ⟨entry.2, ?_⟩
    rw [TableCache.find?_touch, found, Store.content, currentTable_of_some found]
  keys _ cached := .inr cached

section

variable (coherent : Coherent geometry store) (plain : ¬store.IsBlock geometry cluster)
include coherent plain

theorem loadL2_absent (absent : store.l2Cache.find? (cluster * geometry.clusterSize) = none)
    (inFile : cluster * geometry.clusterSize + geometry.clusterSize ≤ store.file.length)
        (settles : Settles store.l2Cache.map left tables)
    (found : ∀ other, loaded.find? other = if other = cluster * geometry.clusterSize then
      some (store.file.read (cluster * geometry.clusterSize) geometry.clusterSize, false) else left.get? other)
    (back : WrittenBack geometry id tables store.file written) :
    LoadedL2 geometry store { store with l2Cache := loaded, file := written } cluster := by
  have aligned : geometry.clusterSize ∣ cluster * geometry.clusterSize := Nat.dvd_mul_left ..
  have homes (key : Nat) (table : List UInt8) (member : (key, table) ∈ tables) : geometry.clusterSize ∣ id key :=
    (coherent.l2.sized settles key table member).2.1
  have keys (host : Nat) (cached : loaded.find? host ≠ none) :
      host = cluster * geometry.clusterSize ∨ store.l2Cache.find? host ≠ none := by
    rw [found] at cached
    split at cached
    · next same => exact .inl same
    cases held : left.get? host with
    | none => exact absurd held cached
    | some entry =>
      obtain ⟨_, before, _⟩ := settles.held host entry.1 entry.2 held
      exact .inr (by rw [find?, before]; simp)
  obtain ⟨l2, sameTables⟩ := coherent.l2.settleLoad settles back absent aligned inFile (fun _ same => same) found
  have blocks (tableIndex : Nat) (present : store.blockHost tableIndex ≠ 0) :
      written.read (store.blockHost tableIndex) geometry.clusterSize =
        store.file.read (store.blockHost tableIndex) geometry.clusterSize := by
    apply back.read_other homes (coherent.hosts tableIndex present).1
    intro key table member same
    have held := settles.listed key table member
    refine coherent.apart key tableIndex ?_ present same.symm
    rw [find?, held]
    simp
  obtain ⟨coherent', sameBlocks⟩ := coherent.replace_l2 l2 back.length blocks fun host tableIndex cached present => by
    rcases keys host cached with rfl | before
    · exact fun same => plain ⟨tableIndex, present, same⟩
    · exact coherent.apart host tableIndex before present
  exact {
    table := rfl
    offset := rfl
    clusters := rfl
    length := back.length
    content := fun other _ => by
      rw [Store.content, Store.content, sameTables]
      exact coherent.l2.currentTable_settle settles back (Nat.dvd_mul_left ..) fun _ _ same => same
    free := rfl
    refcount := Store.refcount_congr ⟨rfl, rfl, rfl⟩ sameBlocks
    coherent := coherent'
    refblocks := rfl
    cached := ⟨false, by rw [found, if_pos rfl, content_eq_read absent]⟩
    keys := keys }

theorem loadL2_ends :
    Ends (loadL2 geometry (cluster * geometry.clusterSize)) store (fun _ after => LoadedL2 geometry store after cluster)
      fun _ _ => ¬(geometry.Writes store ∧
        cluster * geometry.clusterSize + geometry.clusterSize ≤ store.file.length) := by
  apply Ends.get
  refine .ite (fun present => ?_) fun missing => ?_
  · apply Ends.modify
    obtain ⟨entry, found⟩ := Option.isSome_iff_exists.mp present
    exact loadL2_cached coherent found
  have absent : store.l2Cache.find? (cluster * geometry.clusterSize) = none := by simpa using missing
  refine .bind ((readFile_ends store _ _).monoBad fun _ _ failed may => by omega) ?_
  rintro _ _ ⟨rfl, inside, rfl⟩
  have inFile := inside.resolve_left (Geometry.clusterSize_pos geometry).ne'
  obtain ⟨left, settles, found⟩ := put_settles
    (store.file.read (cluster * geometry.clusterSize) geometry.clusterSize) false absent
  apply Ends.modifyThen
  refine .mono (writeTables_ends id ?_ ?_ ?_) ?_ fun _ _ blocked may => blocked may.1
  · intro key table file member
    exact .pure ⟨rfl, rfl⟩
  · exact coherent.l2.sized settles
  · exact coherent.l2.functional settles
  · rintro _ _ ⟨written, rfl, back⟩
    exact loadL2_absent coherent plain absent inFile settles found back

end

theorem LoadedL2.touch (loaded : LoadedL2 geometry store after cluster) (host : Nat) :
    LoadedL2 geometry store { after with l2Cache := after.l2Cache.touch host } cluster :=
  { loaded with coherent := loaded.coherent.map_l2 loaded.coherent.l2 fun _ cached => cached }

section

variable (coherent : Coherent geometry store) (plain : ¬store.IsBlock geometry cluster)
include coherent plain

theorem readClusterViaCache_ends : Ends (readClusterViaCache geometry (cluster * geometry.clusterSize)) store
      (fun table after => table = store.content geometry cluster ∧ LoadedL2 geometry store after cluster)
      fun _ _ => ¬(geometry.Writes store ∧
        cluster * geometry.clusterSize + geometry.clusterSize ≤ store.file.length) := by
  refine .bind (loadL2_ends coherent plain) fun _ middle loaded => ?_
  obtain ⟨dirty, found⟩ := loaded.cached
  apply Ends.get
  rw [found]
  apply Ends.modifyThen
  exact .pure ⟨rfl, loaded.touch _⟩

theorem l2Entry_spec (index : Nat) :
    Ensures (l2Entry geometry (cluster * geometry.clusterSize) index) store fun entry after =>
      entry = wordAt (store.content geometry cluster) index ∧ LoadedL2 geometry store after cluster := by
  refine .bind (readClusterViaCache_ends coherent plain).ensures ?_
  rintro _ after ⟨rfl, loaded⟩
  exact .pure ⟨rfl, loaded⟩

end

structure UpdatedL2 (geometry : Geometry) (store after : Store) (cluster index : Nat) (value : Entry) : Prop
    extends SameTable store after where
  length : after.file.length = store.file.length
  content : ∀ other, ¬store.IsBlock geometry other → after.content geometry other =
    if other = cluster then setWord (store.content geometry cluster) index value else store.content geometry other
  free : after.free = store.free
  refcount : ∀ other, after.refcount geometry other = store.refcount geometry other
  coherent : Coherent geometry after
  keys : ∀ host, after.l2Cache.find? host ≠ none →
    host = cluster * geometry.clusterSize ∨ store.l2Cache.find? host ≠ none

variable {index : Nat}

theorem LoadedL2.update (supported : geometry.Supported)
    (loaded : LoadedL2 geometry store after cluster) (before : Coherent geometry store)
    (inside : index < geometry.l2Entries) {value : Entry}
    (found : ∀ host, l2Cache.find? host = if host = cluster * geometry.clusterSize then
    some (setWord (store.content geometry cluster) index value, true) else after.l2Cache.find? host) :
    UpdatedL2 geometry store { after with l2Cache } cluster index value := by
  obtain ⟨dirty, cached⟩ := loaded.cached
  have room : 8 * index + 8 ≤ (store.content geometry cluster).length := by
    have entries := supported.l2Entries_mul
    rw [before.length_content]
    omega
  have keys (host : Nat) (present : l2Cache.find? host ≠ none) : after.l2Cache.find? host ≠ none := by
    rw [found] at present
    split at present
    · next same => rw [same, cached]; simp
    · exact present
  have l2 : Tables geometry id l2Cache.map after.file := by
    constructor
    · intro host table isDirty held
      have current : l2Cache.find? host = some (table, isDirty) := held
      rw [found] at current
      split at current
      · next same =>
        subst same
        cases current
        have at' := loaded.coherent.l2.cached _ _ _ cached
        exact ⟨(length_setWord room).trans (before.length_content cluster), at'.aligned, at'.inFile,
          fun clean => by cases clean⟩
      · exact loaded.coherent.l2.cached host table isDirty current
    · exact fun _ _ _ _ same => same
  exact { loaded with
    content := fun other plain => by
      have same := loaded.content other plain
      have held := found (other * geometry.clusterSize)
      by_cases equal : other = cluster
      · subst equal
        rw [if_pos rfl] at held
        rw [if_pos rfl, Store.content, currentTable_of_some held]
      have differ : other * geometry.clusterSize ≠ cluster * geometry.clusterSize := fun product =>
        equal (Nat.eq_of_mul_eq_mul_right (Geometry.clusterSize_pos geometry) product)
      rw [if_neg differ] at held
      simp only [find?] at held
      rw [if_neg equal, ← same, Store.content, Store.content, currentTable, currentTable, held]
    coherent := loaded.coherent.map_l2 l2 keys
    keys := fun host present => loaded.keys host (keys host present) }

theorem setL2Entry_spec (supported : geometry.Supported) (coherent : Coherent geometry store)
    (plain : ¬store.IsBlock geometry cluster) (inside : index < geometry.l2Entries) (value : Entry) :
    Ensures (setL2Entry geometry (cluster * geometry.clusterSize) index value) store fun _ after =>
      UpdatedL2 geometry store after cluster index value := by
  refine .bind (loadL2_ends coherent plain).ensures fun _ middle loaded => ?_
  apply Ensures.modify
  obtain ⟨dirty, cached⟩ := loaded.cached
  refine loaded.update supported coherent inside fun host => ?_
  rw [TableCache.find?_update, cached]
  rfl

end

variable {tableIndex : Nat} {refblockCache : TableCache}

theorem replace_blocks (coherent : Coherent geometry store)
    (blocks : Tables geometry store.blockHost refblockCache.map file) (length : file.length = store.file.length)
    (clusters : ∀ cluster, ¬store.IsBlock geometry cluster →
      file.read (cluster * geometry.clusterSize) geometry.clusterSize =
        store.file.read (cluster * geometry.clusterSize) geometry.clusterSize)
    (allocated : ∀ index, refblockCache.find? index ≠ none → store.blockHost index ≠ 0) :
    Coherent geometry { store with refblockCache, file } ∧ Still geometry store { store with refblockCache, file } := by
  have plain (host : Nat) (cached : store.l2Cache.find? host ≠ none) :
      ∃ cluster, host = cluster * geometry.clusterSize ∧ ¬store.IsBlock geometry cluster := by
    cases held : store.l2Cache.map.get? host with
    | none => exact absurd held cached
    | some entry =>
      obtain ⟨cluster, aligned⟩ := (coherent.l2.cached host entry.1 entry.2 held).aligned
      rw [Nat.mul_comm] at aligned
      refine ⟨cluster, aligned, ?_⟩
      rintro ⟨index, present, same⟩
      exact coherent.apart host index cached present (same.trans aligned.symm)
  refine ⟨⟨?_, blocks, allocated, ?_, coherent.distinct, coherent.apart⟩, ⟨⟨rfl, rfl, rfl⟩, length, ?_⟩⟩
  · refine coherent.l2.congr_file length.ge fun host cached => ?_
    obtain ⟨cluster, rfl, notBlock⟩ := plain host cached
    exact clusters cluster notBlock
  · intro index present
    obtain ⟨aligned, inFile⟩ := coherent.hosts index present
    exact ⟨aligned, length ▸ inFile⟩
  intro cluster notBlock
  simp only [Store.content, currentTable]
  split
  · rfl
  · exact clusters cluster notBlock

structure LoadedBlock (geometry : Geometry) (store after : Store) (tableIndex : Nat) : Prop
    extends Quiet geometry store after where
  coherent : Coherent geometry after
  l2 : after.l2Cache = store.l2Cache
  blocks : ∀ index, store.blockHost index ≠ 0 → after.block geometry index = store.block geometry index
  cached : ∃ dirty, after.refblockCache.find? tableIndex = some (store.block geometry tableIndex, dirty)

theorem loadRefblock_absent (coherent : Coherent geometry store) (present : store.blockHost tableIndex ≠ 0)
    (absent : store.refblockCache.find? tableIndex = none)
    (inFile : store.blockHost tableIndex + geometry.clusterSize ≤ store.file.length)
        (settles : Settles store.refblockCache.map left tables)
    (found : ∀ other, loaded.find? other = if other = tableIndex then
      some (store.file.read (store.blockHost tableIndex) geometry.clusterSize, false) else left.get? other)
    (back : WrittenBack geometry store.blockHost tables store.file written) :
    LoadedBlock geometry store { store with refblockCache := loaded, file := written } tableIndex := by
  have absent : store.refblockCache.map.get? tableIndex = none := absent
  have dirtyHost (key : Nat) (table : List UInt8) (member : (key, table) ∈ tables) : store.blockHost key ≠ 0 := by
    have held := settles.listed key table member
    exact coherent.allocated key (by rw [find?, held]; simp)
  have homes (key : Nat) (table : List UInt8) (member : (key, table) ∈ tables) :
      geometry.clusterSize ∣ store.blockHost key :=
    (coherent.blocks.sized settles key table member).2.1
  have own (index : Nat) (hasHost : store.blockHost index ≠ 0) (other : Nat)
      (same : store.blockHost other = store.blockHost index) : other = index :=
    coherent.distinct index other hasHost same
  have allocatedLeft (index : Nat) (kept : left.get? index ≠ none) : store.blockHost index ≠ 0 := by
    cases held : left.get? index with
    | none => exact absurd held kept
    | some entry =>
      obtain ⟨_, before, _⟩ := settles.held index entry.1 entry.2 held
      exact coherent.allocated index (by rw [find?, before]; simp)
  obtain ⟨blocks, sameTables⟩ := coherent.blocks.settleLoad settles back absent (coherent.hosts tableIndex present).1
    inFile (own tableIndex present) found
  have sameBlocks (index : Nat) (hasHost : store.blockHost index ≠ 0) :
      Store.block geometry { store with refblockCache := loaded, file := written } index = store.block geometry index :=
    (sameTables index).trans
      (coherent.blocks.currentTable_settle settles back (coherent.hosts index hasHost).1
        fun other _ same => own index hasHost other same)
  obtain ⟨coherent', still⟩ := coherent.replace_blocks blocks back.length
    (fun cluster notBlock => by
      apply back.read_other homes (Nat.dvd_mul_left ..)
      intro key table member
      exact fun same => notBlock ⟨key, dirtyHost key table member, same⟩)
    (fun index cached => by
      rw [found] at cached
      split at cached
      · next same => exact same ▸ present
      · exact allocatedLeft index cached)
  exact {
    toStill := still
    free := rfl
    refcount := Store.refcount_congr ⟨rfl, rfl, rfl⟩ sameBlocks
    coherent := coherent'
    l2 := rfl
    blocks := sameBlocks
    cached := ⟨false, by rw [found, if_pos rfl, Store.block, currentTable_of_none absent]⟩ }

theorem refblockHost_ends (store : Store) (index : Nat) : Ends (refblockHost index) store (fun host after =>
        host = store.blockHost index ∧ store.blockHost index ≠ 0 ∧ store = after)
      fun _ _ => store.blockHost index = 0 := by
  apply Ends.get
  refine .ite (fun outside => .throw ?_) fun _ => ?_
  · rw [Store.blockHost, List.getD_eq_default _ _ outside]
    rfl
  · exact .ite (fun none => .throw none) fun present => .pure ⟨rfl, present, rfl⟩

section

variable (coherent : Coherent geometry store)
include coherent

theorem touch_block (index : Nat) :
    Coherent geometry { store with refblockCache := store.refblockCache.touch index } :=
  ⟨coherent.l2, coherent.blocks, coherent.allocated, coherent.hosts, coherent.distinct, coherent.apart⟩

theorem loadRefblock_ends :
    Ends (loadRefblock geometry tableIndex) store (fun _ after => LoadedBlock geometry store after tableIndex)
      fun _ _ => ¬(geometry.Writes store ∧ store.blockHost tableIndex ≠ 0) := by
  apply Ends.get
  refine .ite (fun cached => ?_) fun missing => ?_
  · apply Ends.modify
    obtain ⟨entry, found⟩ := Option.isSome_iff_exists.mp cached
    have cached : (store.refblockCache.touch tableIndex).find? tableIndex =
        some (store.block geometry tableIndex, entry.2) := by
      rw [TableCache.find?_touch, found, Store.block, currentTable_of_some found]
    exact ⟨⟨⟨⟨rfl, rfl, rfl⟩, rfl, fun _ _ => rfl⟩, rfl, fun _ => rfl⟩, coherent.touch_block tableIndex, rfl,
      fun _ _ => rfl, entry.2, cached⟩
  have absent : store.refblockCache.find? tableIndex = none := by simpa using missing
  refine .bind ((refblockHost_ends store tableIndex).monoBad fun _ _ none may => may.2 none) ?_
  rintro _ _ ⟨rfl, present, rfl⟩
  have inFile := (coherent.hosts tableIndex present).2
  refine .bind ((readFile_ends store _ _).monoBad fun _ _ failed => by omega) ?_
  rintro _ _ ⟨rfl, _, rfl⟩
  obtain ⟨left, settles, found⟩ := put_settles
    (store.file.read (store.blockHost tableIndex) geometry.clusterSize) false absent
  apply Ends.modifyThen
  refine .mono (writeTables_ends store.blockHost ?_ ?_ ?_) ?_ fun _ _ blocked may => blocked may.1
  · intro key table file member
    have held := settles.listed key table member
    have placed := coherent.allocated key (by rw [find?, held]; simp)
    refine (refblockHost_ends _ key).mono ?_ fun _ _ => placed
    rintro _ _ ⟨rfl, _, rfl⟩
    exact ⟨rfl, rfl⟩
  · exact coherent.blocks.sized settles
  · exact coherent.blocks.functional settles
  · rintro _ _ ⟨written, rfl, back⟩
    exact loadRefblock_absent coherent present absent inFile settles found back

theorem readRefblock_ends : Ends (readRefblock geometry tableIndex) store
      (fun block after => block = store.block geometry tableIndex ∧ LoadedBlock geometry store after tableIndex)
      fun _ _ => ¬(geometry.Writes store ∧ store.blockHost tableIndex ≠ 0) := by
  refine .bind (loadRefblock_ends coherent) fun _ middle loaded => ?_
  obtain ⟨dirty, found⟩ := loaded.cached
  apply Ends.get
  rw [found]
  apply Ends.modifyThen
  refine .pure ⟨rfl, ?_⟩
  exact { loaded with coherent := loaded.coherent.touch_block tableIndex, cached := ⟨dirty, found⟩ }

end

structure Counted (geometry : Geometry) (store after : Store) : Prop extends Quiet geometry store after where
  coherent : Coherent geometry after
  l2 : after.l2Cache = store.l2Cache

theorem Counted.refl (coherent : Coherent geometry store) : Counted geometry store store :=
  ⟨Quiet.refl store, coherent, rfl⟩

theorem getRefcount_ends (coherent : Coherent geometry store) (cluster : Nat) :
    Ends (getRefcount geometry cluster) store
      (fun value after => value = store.refcount geometry cluster ∧ Counted geometry store after)
      fun _ _ => ¬geometry.Writes store := by
  apply Ends.get
  refine .ite (fun missing => ?_) fun present => ?_
  · exact .pure ⟨(if_pos missing).symm, Counted.refl coherent⟩
  refine .bind ((readRefblock_ends coherent).monoBad fun _ _ blocked may => blocked ⟨may, present⟩) ?_
  rintro _ after ⟨rfl, loaded⟩
  exact .pure ⟨(if_neg present).symm, loaded.toQuiet, loaded.coherent, loaded.l2⟩

structure SetRefcount (geometry : Geometry) (store after : Store) (cluster value : Nat) : Prop
    extends Still geometry store after where
  coherent : Coherent geometry after
  l2 : after.l2Cache = store.l2Cache
  free : after.free = store.free
  refcount : ∀ other, after.refcount geometry other = if other = cluster then value else store.refcount geometry other

variable {value : Nat}

theorem LoadedBlock.update (supported : geometry.Supported) {middle : Store} {cluster : Nat}
    (loaded : LoadedBlock geometry store middle (cluster / geometry.refblockEntries))
    (coherent : Coherent geometry store) (covered : store.Covered geometry cluster)
    (fits : value < 2 ^ geometry.refcountBits)
    (found : ∀ index, refblockCache.find? index = if index = cluster / geometry.refblockEntries then
      some (bitsSet (store.block geometry (cluster / geometry.refblockEntries))
        (cluster % geometry.refblockEntries) geometry.refcountBits value, true)
      else middle.refblockCache.find? index) :
    SetRefcount geometry store { middle with refblockCache } cluster value := by
  obtain ⟨dirty, cached⟩ := loaded.cached
  have room : (cluster % geometry.refblockEntries + 1) * geometry.refcountBits ≤
      (store.block geometry (cluster / geometry.refblockEntries)).length * 8 := by
    rw [coherent.length_block, ← supported.refblockEntries_mul]
    exact Nat.mul_le_mul_right _ (Nat.mod_lt _ supported.refblockEntries_pos)
  have hosts (index : Nat) : middle.blockHost index = store.blockHost index := loaded.toSameTable.blockHost index
  have kept (index : Nat) (held : refblockCache.find? index ≠ none) : middle.refblockCache.find? index ≠ none := by
    rw [found] at held
    split at held
    · next same => rw [same, cached]; simp
    · exact held
  have blocks : Tables geometry middle.blockHost refblockCache.map middle.file := by
    constructor
    · intro index block isDirty held
      have current : refblockCache.find? index = some (block, isDirty) := held
      rw [found] at current
      split at current
      · next same =>
        subst same
        cases current
        have at' := loaded.coherent.blocks.cached _ _ _ cached
        exact ⟨(length_bitsSet supported.width room).trans (coherent.length_block _), at'.aligned, at'.inFile,
          fun clean => by cases clean⟩
      · exact loaded.coherent.blocks.cached index block isDirty current
    · intro left right leftHeld rightHeld
      exact loaded.coherent.blocks.injective left right (kept left leftHeld) (kept right rightHeld)
  obtain ⟨coherent', still⟩ := loaded.coherent.replace_blocks blocks rfl (fun _ _ => rfl) fun index held =>
    loaded.coherent.allocated index (kept index held)
  refine ⟨loaded.toStill.trans still, coherent', loaded.l2, loaded.free, fun other => ?_⟩
  have blockOther (index : Nat) (present : store.blockHost index ≠ 0) :
      Store.block geometry { middle with refblockCache } index =
        if index = cluster / geometry.refblockEntries then
          bitsSet (store.block geometry (cluster / geometry.refblockEntries)) (cluster % geometry.refblockEntries)
            geometry.refcountBits value
        else store.block geometry index := by
    have held := found index
    simp only [find?] at held
    split
    · next same =>
      rw [if_pos same] at held
      rw [Store.block, currentTable_of_some held]
    · next differ =>
      rw [if_neg differ] at held
      rw [← loaded.blocks index present, Store.block, Store.block, currentTable, currentTable, held]
      rfl
  simp only [Store.refcount]
  show (if middle.blockHost _ = 0 then 0 else _) = _
  rw [hosts]
  by_cases missing : store.blockHost (other / geometry.refblockEntries) = 0
  · rw [if_pos missing, if_pos missing, if_neg]
    rintro rfl
    exact covered missing
  rw [if_neg missing, if_neg missing, blockOther _ missing]
  by_cases sameBlock : other / geometry.refblockEntries = cluster / geometry.refblockEntries
  · rw [if_pos sameBlock, bitsGet_bitsSet supported.width fits room, sameBlock]
    have decomposed := Nat.div_add_mod other geometry.refblockEntries
    have decomposed' := Nat.div_add_mod cluster geometry.refblockEntries
    by_cases sameIndex : other % geometry.refblockEntries = cluster % geometry.refblockEntries
    · rw [if_pos sameIndex, if_pos]
      rw [← decomposed, ← decomposed', sameBlock, sameIndex]
    rw [if_neg sameIndex, if_neg]
    rintro rfl
    exact sameIndex rfl
  · rw [if_neg sameBlock, if_neg]
    rintro rfl
    exact sameBlock rfl

theorem refblockSet_ends (supported : geometry.Supported) (coherent : Coherent geometry store) {cluster : Nat}
    (covered : store.Covered geometry cluster) (fits : value < 2 ^ geometry.refcountBits) :
    Ends (refblockSet geometry (cluster / geometry.refblockEntries) (cluster % geometry.refblockEntries) value)
      store (fun _ after => SetRefcount geometry store after cluster value) fun _ _ => ¬geometry.Writes store := by
  refine .bind ((loadRefblock_ends coherent).monoBad fun _ _ blocked may => blocked ⟨may, covered⟩)
    fun _ middle loaded => ?_
  apply Ends.modify
  obtain ⟨dirty, cached⟩ := loaded.cached
  refine loaded.update supported coherent covered fits fun index => ?_
  rw [TableCache.find?_update, cached]
  rfl

end Coherent

end Vmlab.Disk.Qcow2
