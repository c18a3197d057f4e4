import Vmlab.Disk.Qcow2.Allocator
import Vmlab.Disk.Qcow2.CompressedProperties

/-!
# What the guest sees

The bytes behind guest positions, read off the mapping tables without running
anything, and the images whose metadata agree with each other.
-/

namespace Vmlab.Disk

open List

variable {pinned' tabled' : Nat → Nat} {region' : List Nat} {position : Nat} {byte : UInt8}

def BackingImage.byteAt (backing : BackingImage) (position : Nat) : Option UInt8 :=
  if backing.size ≤ position then some 0
  else
    match backing.readAt position 1 with
    | .ok [byte] => some byte
    | _ => none

structure BackingImage.Bytewise (backing : BackingImage) : Prop where
  reads : ∀ offset count bytes, offset + count ≤ backing.size → backing.readAt offset count = .ok bytes →
    bytes.length = count ∧ ∀ index < count, backing.byteAt (offset + index) = bytes[index]?
  fails : ∀ offset count error, offset + count ≤ backing.size → backing.readAt offset count = .error error →
    ∃ index < count, backing.byteAt (offset + index) = none

namespace Qcow2

open Library

section

variable {geometry : Geometry}

theorem Geometry.Supported.l1IndexOf_eq (supported : geometry.Supported) (position : Nat) :
    geometry.l1IndexOf position = position / geometry.clusterSize / geometry.l2Entries := by
  have bits := supported.clusterBits_ge
  have entries : geometry.l2Entries = 2 ^ (geometry.clusterBits - 3) :=
    (Nat.pow_div (by omega : 3 ≤ geometry.clusterBits) (by decide))
  rw [Geometry.l1IndexOf, Geometry.l2IndexBits, Nat.shiftRight_add, Nat.shiftRight_eq_div_pow,
    Nat.shiftRight_eq_div_pow, entries]
  rfl

theorem Geometry.l2IndexOf_eq (geometry : Geometry) (position : Nat) :
    geometry.l2IndexOf position = position / geometry.clusterSize % geometry.l2Entries := by
  rw [Geometry.l2IndexOf, Nat.shiftRight_eq_div_pow]
  rfl

theorem Geometry.Supported.l2Entries_pos (supported : geometry.Supported) : 0 < geometry.l2Entries := by
  have entries := supported.l2Entries_mul
  have size := geometry.clusterSize_pos
  omega

end

def ReadSource.shift (source : ReadSource) (distance : Nat) : ReadSource :=
  match source with
  | .file host => .file (host + distance)
  | other => other

theorem ReadSource.fromEntry_add (entry : Entry) (start distance : Nat) :
    fromEntry entry (start + distance) = (fromEntry entry start).shift distance := by
  simp only [fromEntry]
  split
  · rfl
  split
  · rfl
  split
  · rfl
  · simp only [shift, Nat.add_assoc]

theorem ReadSource.shift_of_adjacent {source next : ReadSource} {length : Nat}
    (continues : source.adjacent length next = true) : next = source.shift length := by
  cases source <;> cases next <;> simp_all [adjacent, shift]

theorem ReadSource.shift_shift (source : ReadSource) (left right : Nat) :
    (source.shift left).shift right = source.shift (left + right) := by
  cases source <;> simp [shift, Nat.add_assoc]

section

variable (geometry : Geometry)

def entryClusters (entry : Entry) : List Nat :=
  if isCompressed entry then usedClusters geometry entry else pointer geometry entry

def Store.tableClusters (store : Store) (table : Nat) : List Nat :=
  (bytesToWords (store.content geometry table)).flatMap (entryClusters geometry)

def Store.inflated (store : Store) (entry : Entry) : Option (List UInt8) :=
  let start := (compressedExtent geometry entry).1
  (store.file.readExactAt start (compressedEnd geometry entry - start)).bind fun stream =>
    (geometry.host.inflate stream geometry.clusterSize).map fun bytes =>
      bytes.take geometry.clusterSize ++ List.replicate (geometry.clusterSize - bytes.length) 0

namespace Image

variable (image : Image)

def dataClusters : List Nat :=
  (pointers geometry image.l1).flatMap (image.store.tableClusters geometry)

def tableOf (guest : Nat) : Nat := hostOf (image.l1.getD (guest / geometry.l2Entries) 0)

def entryOf (guest : Nat) : Entry :=
  if image.tableOf geometry guest = 0 then 0
  else wordAt (image.store.content geometry (image.tableOf geometry guest / geometry.clusterSize))
    (guest % geometry.l2Entries)

def sourceAt (position : Nat) : ReadSource :=
  .fromEntry (image.entryOf geometry (position / geometry.clusterSize)) (position % geometry.clusterSize)

def backingByte (position : Nat) : Option UInt8 :=
  match image.backingImage with
  | none => some 0
  | some backing => backing.byteAt position

def sourceByte (source : ReadSource) (position : Nat) : Option UInt8 :=
  match source with
  | .backing => image.backingByte position
  | .zero => some 0
  | .file host => if host < image.store.file.length then some (image.store.file.byteAt host) else none
  | .compressed entry => (image.store.inflated geometry entry).bind (·[position % geometry.clusterSize]?)

/-- The guest's disk, where it can be read. -/
def view (position : Nat) : Option UInt8 :=
  image.sourceByte geometry (image.sourceAt geometry position) position

end Image

/-- The metadata of an image agree: every reference of the active layer is
counted besides the header, offsets are aligned, and a copied bit stands at
clusters with one reference only. -/
structure Sound (image : Image) (region : List Nat) (pinned tabled : Nat → Nat) : Prop where
  ledger : Ledger geometry image.store region pinned tabled
  tables : ∀ cluster, (pointers geometry image.l1).count cluster ≤ tabled cluster
  data : ∀ cluster, (image.dataClusters geometry).count cluster ≤ pinned cluster
  header : (image.dataClusters geometry).count 0 < pinned 0
  tableHosts : ∀ entry ∈ image.l1, hostOf entry ≠ 0 →
    geometry.clusterSize ∣ hostOf entry ∧ hostOf entry + geometry.clusterSize ≤ image.store.file.length
  dataHosts : ∀ table ∈ pointers geometry image.l1, ∀ entry ∈ bytesToWords (image.store.content geometry table),
    isCompressed entry = false → geometry.clusterSize ∣ hostOf entry
  copied : ∀ table ∈ pointers geometry image.l1, ∀ entry ∈ bytesToWords (image.store.content geometry table),
    isCompressed entry = false → isCopied entry = true → hostOf entry ≠ 0 →
      pinned (hostOf entry / geometry.clusterSize) = 1
  fits : image.store.file.length ≤ geometry.host.maxFileLen

end

variable {geometry : Geometry} {image : Image} {region : List Nat} {pinned tabled : Nat → Nat}

structure TableAt (geometry : Geometry) (image : Image) (guest table : Nat) : Prop where
  host : image.tableOf geometry guest = table * geometry.clusterSize
  nonzero : image.tableOf geometry guest ≠ 0
  mem : table ∈ pointers geometry image.l1
  inFile : table * geometry.clusterSize + geometry.clusterSize ≤ image.store.file.length

section

variable (sound : Sound geometry image region pinned tabled)
include sound

theorem Sound.tableAt {guest : Nat} (present : image.tableOf geometry guest ≠ 0) :
    TableAt geometry image guest (image.tableOf geometry guest / geometry.clusterSize) := by
  have member : image.l1.getD (guest / geometry.l2Entries) 0 ∈ image.l1 := by
    rw [getD_eq_getElem?_getD]
    cases found : image.l1[guest / geometry.l2Entries]? with
    | none =>
      rw [Image.tableOf, getD_eq_getElem?_getD, found] at present
      exact absurd hostOf_zero present
    | some entry => exact mem_of_getElem? found
  obtain ⟨aligned, inFile⟩ := sound.tableHosts _ member present
  have host : image.tableOf geometry guest / geometry.clusterSize * geometry.clusterSize =
      image.tableOf geometry guest := div_mul_of_dvd aligned
  exact ⟨host.symm, present, mem_pointers.mpr ⟨_, member, present, rfl⟩, host.symm ▸ inFile⟩

theorem Sound.sameTables {after : Store}
    (ledger : Ledger geometry after region pinned tabled) (length : image.store.file.length ≤ after.file.length)
    (fits : after.file.length ≤ geometry.host.maxFileLen)
    (tables : ∀ table ∈ pointers geometry image.l1, after.content geometry table = image.store.content geometry table) :
    Sound geometry { image with store := after } region pinned tabled ∧
      Image.dataClusters geometry { image with store := after } = image.dataClusters geometry ∧
      ∀ guest, Image.entryOf geometry { image with store := after } guest = image.entryOf geometry guest := by
  have clusters : Image.dataClusters geometry { image with store := after } = image.dataClusters geometry :=
    flatMap_congr fun other member => by rw [Store.tableClusters, Store.tableClusters, tables other member]
  refine ⟨⟨ledger, sound.tables, by rw [clusters]; exact sound.data, by rw [clusters]; exact sound.header, ?_, ?_, ?_, fits⟩,
    clusters, fun guest => ?_⟩
  · intro entry member present
    obtain ⟨aligned, inFile⟩ := sound.tableHosts entry member present
    exact ⟨aligned, inFile.trans length⟩
  · intro other member
    rw [tables other member]
    exact sound.dataHosts other member
  · intro other member
    rw [tables other member]
    exact sound.copied other member
  · by_cases present : image.tableOf geometry guest = 0
    · rw [Image.entryOf, Image.entryOf, if_pos present]
      exact if_pos present
    · rw [Image.entryOf, Image.entryOf, if_neg present, ← tables _ (sound.tableAt present).mem]
      exact if_neg present

theorem Sound.tabled_pos {table : Nat} (member : table ∈ pointers geometry image.l1) : 0 < tabled table :=
  Nat.lt_of_lt_of_le (count_pos_iff.mpr member) (sound.tables table)

theorem Sound.pinned_pos {cluster : Nat} (member : cluster ∈ image.dataClusters geometry) : 0 < pinned cluster :=
  Nat.lt_of_lt_of_le (count_pos_iff.mpr member) (sound.data cluster)

end

theorem TableAt.entryOf {guest table : Nat} (found : TableAt geometry image guest table) :
    image.entryOf geometry guest = wordAt (image.store.content geometry table) (guest % geometry.l2Entries) := by
  rw [Image.entryOf, if_neg found.nonzero, found.host, mul_div_clusterSize]

theorem wordAt_mem_content (supported : geometry.Supported) {store : Store} (coherent : Coherent geometry store)
    (table : Nat) {index : Nat} (inside : index < geometry.l2Entries) :
    wordAt (store.content geometry table) index ∈ bytesToWords (store.content geometry table) := by
  apply mem_of_getElem?
  rw [getElem?_bytesToWords, if_pos]
  rw [coherent.length_content, ← supported.l2Entries_mul]
  omega

structure EntryAt (geometry : Geometry) (image : Image) (entry : Entry) : Prop where
  aligned : isCompressed entry = false → geometry.clusterSize ∣ hostOf entry
  claimed : ∀ cluster ∈ entryClusters geometry entry, cluster ∈ image.dataClusters geometry

theorem entryClusters_zero : entryClusters geometry 0 = [] := by
  rw [entryClusters, isCompressed_zero, if_neg (by decide)]
  exact pointer_of_hostOf_eq_zero hostOf_zero

theorem Sound.entryAt (supported : geometry.Supported) (sound : Sound geometry image region pinned tabled) (guest : Nat) :
    EntryAt geometry image (image.entryOf geometry guest) := by
  by_cases present : image.tableOf geometry guest = 0
  · rw [Image.entryOf, if_pos present]
    refine ⟨fun _ => hostOf_zero ▸ Nat.dvd_zero _, fun cluster member => ?_⟩
    rw [entryClusters_zero] at member
    cases member
  have found := sound.tableAt present
  have member := wordAt_mem_content supported sound.ledger.coherent (image.tableOf geometry guest / geometry.clusterSize)
    (Nat.mod_lt guest supported.l2Entries_pos)
  rw [found.entryOf]
  refine ⟨sound.dataHosts _ found.mem _ member, fun cluster inside => ?_⟩
  exact mem_flatMap.mpr ⟨_, found.mem, mem_flatMap.mpr ⟨_, member, inside⟩⟩

variable {after : Image}

theorem Ledger.byteAt_eq {store other : Store}
    (ledger : Ledger geometry store region pinned tabled) (ledger' : Ledger geometry other region' pinned' tabled')
    (before : 0 < pinned (position / geometry.clusterSize)) (now : 0 < pinned' (position / geometry.clusterSize))
    (same : other.content geometry (position / geometry.clusterSize) =
    store.content geometry (position / geometry.clusterSize)) :
    other.file.byteAt position = store.file.byteAt position := by
  rw [Coherent.content_eq_read (ledger.uncached before), Coherent.content_eq_read (ledger'.uncached now)] at same
  have small := Nat.mod_lt position geometry.clusterSize_pos
  have bytes := congrArg (·.getD (position % geometry.clusterSize) 0) same
  rw [File.getD_read small, File.getD_read small, Nat.div_add_mod'] at bytes
  exact bytes

theorem Image.sourceByte_kept {entry : Entry}
    (aligned : isCompressed entry = false → geometry.clusterSize ∣ hostOf entry)
    (backing : after.backingImage = image.backingImage) (length : image.store.file.length ≤ after.store.file.length)
    (same : ∀ host, host / geometry.clusterSize ∈ entryClusters geometry entry →
    after.store.file.byteAt host = image.store.file.byteAt host)
    (shown : image.sourceByte geometry (.fromEntry entry (position % geometry.clusterSize)) position = some byte) :
    after.sourceByte geometry (.fromEntry entry (position % geometry.clusterSize)) position = some byte := by
  unfold ReadSource.fromEntry at shown ⊢
  split
  · next compressed =>
    rw [if_pos compressed] at shown
    simp only [Image.sourceByte, Option.bind_eq_some_iff, Store.inflated] at shown ⊢
    obtain ⟨cluster, ⟨stream, read, inflates⟩, found⟩ := shown
    refine ⟨cluster, ⟨stream, ?_, inflates⟩, found⟩
    rw [File.readExactAt_eq_some] at read ⊢
    refine ⟨read.1.trans (File.read_congr fun index inside => ?_).symm, by omega⟩
    apply same
    rw [entryClusters, if_pos compressed]
    exact mem_usedClusters.mpr ⟨_, Nat.le_add_right .., by omega, rfl⟩
  · next plain =>
    have plain : isCompressed entry = false := by simpa using plain
    rw [if_neg (by simp [plain])] at shown
    split
    · next zero => rwa [if_pos zero] at shown
    rename_i nonzero
    rw [if_neg nonzero] at shown
    split
    · next absent =>
      rw [if_pos absent] at shown
      simp only [Image.sourceByte, Image.backingByte] at shown ⊢
      rwa [backing]
    · next present =>
      rw [if_neg present] at shown
      simp only [Image.sourceByte] at shown ⊢
      split at shown
      · next inside =>
        have cluster : (hostOf entry + position % geometry.clusterSize) / geometry.clusterSize =
            hostOf entry / geometry.clusterSize := by
          obtain ⟨quotient, host⟩ := aligned plain
          rw [host, Nat.mul_add_div geometry.clusterSize_pos,
            Nat.div_eq_of_lt (Nat.mod_lt _ geometry.clusterSize_pos), Nat.add_zero,
            Nat.mul_div_cancel_left _ geometry.clusterSize_pos]
        rw [if_pos (by omega), same]
        · exact shown
        · rw [cluster, entryClusters, plain]
          exact mem_pointer.mpr ⟨present, rfl⟩
      · cases shown

variable (supported : geometry.Supported) (sound : Sound geometry image region pinned tabled)
  (ledger : Ledger geometry after.store region' pinned' tabled')
include supported sound ledger

theorem Sound.view_entry (backing : after.backingImage = image.backingImage)
    (length : image.store.file.length ≤ after.store.file.length)
    (entry : after.entryOf geometry (position / geometry.clusterSize) =
    image.entryOf geometry (position / geometry.clusterSize))
    (data : ∀ cluster ∈ entryClusters geometry (image.entryOf geometry (position / geometry.clusterSize)),
    0 < pinned' cluster ∧ after.store.content geometry cluster = image.store.content geometry cluster)
    (shown : image.view geometry position = some byte) : after.view geometry position = some byte := by
  have known := sound.entryAt supported (position / geometry.clusterSize)
  rw [Image.view, Image.sourceAt, entry]
  refine Image.sourceByte_kept known.aligned backing length (fun host member => ?_) shown
  have inData := known.claimed _ member
  exact sound.ledger.byteAt_eq ledger (sound.pinned_pos inData) (data _ member).1 (data _ member).2

theorem Sound.view_kept (l1 : after.l1 = image.l1)
    (backing : after.backingImage = image.backingImage) (length : image.store.file.length ≤ after.store.file.length)
    (tables : ∀ table ∈ pointers geometry image.l1, after.store.content geometry table = image.store.content geometry table)
    (data : ∀ cluster ∈ image.dataClusters geometry, 0 < pinned' cluster ∧
    after.store.content geometry cluster = image.store.content geometry cluster)
    (shown : image.view geometry position = some byte) : after.view geometry position = some byte := by
  have entry : after.entryOf geometry (position / geometry.clusterSize) =
      image.entryOf geometry (position / geometry.clusterSize) := by
    rw [Image.entryOf, Image.entryOf]
    have table : after.tableOf geometry (position / geometry.clusterSize) =
        image.tableOf geometry (position / geometry.clusterSize) := by rw [Image.tableOf, Image.tableOf, l1]
    rw [table]
    split
    · rfl
    · next present => rw [tables _ (sound.tableAt present).mem]
  exact sound.view_entry supported ledger backing length entry
    (fun cluster member => data cluster ((sound.entryAt supported _).claimed cluster member)) shown

end Qcow2

end Vmlab.Disk

/-! ## Changing clusters in use -/

namespace Vmlab.Disk.Qcow2

open Library List

variable {geometry : Geometry} {store : Store} {region : List Nat} {pinned tabled : Nat → Nat}

variable {position cluster : Nat} {data : List UInt8}

structure Patched (geometry : Geometry) (store after : Store) (region : List Nat) (pinned tabled : Nat → Nat)
    (cluster start : Nat) (data : List UInt8) : Prop where
  ledger : Ledger geometry after region pinned tabled
  table : after.refcountTable = store.refcountTable
  length : store.file.length ≤ after.file.length
  inFile : data = [] ∨ cluster * geometry.clusterSize + start + data.length ≤ after.file.length
  fits : store.file.length ≤ geometry.host.maxFileLen → after.file.length ≤ geometry.host.maxFileLen
  content : ∀ other, after.content geometry other =
    if other = cluster then overwrite (store.content geometry cluster) start data else store.content geometry other

structure Overwritten (geometry : Geometry) (store after : Store) (region : List Nat) (pinned tabled : Nat → Nat)
    (position : Nat) (data : List UInt8) : Prop where
  ledger : Ledger geometry after region pinned tabled
  table : after.refcountTable = store.refcountTable
  length : store.file.length ≤ after.file.length
  inFile : data = [] ∨ position + data.length ≤ after.file.length ∧ position + data.length ≤ geometry.host.maxFileLen
  fits : store.file.length ≤ geometry.host.maxFileLen → after.file.length ≤ geometry.host.maxFileLen
  file : ∀ start count, data ≠ [] → after.file.read start count = (store.file.patch position data).read start count
  content : ∀ other, (∀ index < data.length, (position + index) / geometry.clusterSize ≠ other) →
    after.content geometry other = store.content geometry other

theorem read_patch_untouched (file : File) (nonempty : data ≠ [])
    (untouched : ∀ index < data.length, (position + index) / geometry.clusterSize ≠ cluster) :
    (file.patch position data).read (cluster * geometry.clusterSize) geometry.clusterSize =
      file.read (cluster * geometry.clusterSize) geometry.clusterSize := by
  have size := geometry.clusterSize_pos
  have some := length_pos_iff.mpr nonempty
  apply File.read_patch_of_disjoint
  by_contra overlap
  refine untouched (max position (cluster * geometry.clusterSize) - position) (by omega) ?_
  have next : (cluster + 1) * geometry.clusterSize = cluster * geometry.clusterSize + geometry.clusterSize := Nat.succ_mul ..
  exact Nat.div_eq_of_lt_le (by omega) (by omega)

private theorem Coherent.patch (coherent : Coherent geometry store) (nonempty : data ≠ [])
    (plain : ∀ index < data.length, ¬store.IsBlock geometry ((position + index) / geometry.clusterSize))
    (uncached : ∀ index < data.length,
    store.l2Cache.find? ((position + index) / geometry.clusterSize * geometry.clusterSize) = none) :
    Coherent geometry { store with file := store.file.patch position data } ∧
      ∀ tableIndex, store.blockHost tableIndex ≠ 0 →
        Store.block geometry { store with file := store.file.patch position data } tableIndex =
          store.block geometry tableIndex := by
  have apart (home : Nat) (aligned : geometry.clusterSize ∣ home)
      (differ : ∀ index < data.length, (position + index) / geometry.clusterSize * geometry.clusterSize ≠ home) :
      (store.file.patch position data).read home geometry.clusterSize = store.file.read home geometry.clusterSize := by
    rw [← div_mul_of_dvd aligned]
    exact read_patch_untouched store.file nonempty fun index inside same => differ index inside (by rw [same, div_mul_of_dvd aligned])
  have blocks (tableIndex : Nat) (present : store.blockHost tableIndex ≠ 0) :=
    apart _ (coherent.hosts tableIndex present).1 fun index inside same =>
      plain index inside ⟨tableIndex, present, same.symm⟩
  have length : store.file.length ≤ (store.file.patch position data).length := Nat.le_max_left ..
  refine ⟨⟨coherent.l2.congr_file length fun host cached => ?_,
    coherent.blocks.congr_file length fun tableIndex cached => blocks tableIndex (coherent.allocated _ cached),
    coherent.allocated, fun tableIndex present => ⟨(coherent.hosts tableIndex present).1,
      (coherent.hosts tableIndex present).2.trans length⟩, coherent.distinct, coherent.apart⟩, fun tableIndex present => ?_⟩
  · obtain ⟨entry, found⟩ := Option.ne_none_iff_exists'.mp cached
    refine apart host (coherent.l2.cached host entry.1 entry.2 found).aligned fun index inside same => ?_
    subst same
    exact cached (uncached index inside)
  simp only [Store.block, currentTable]
  split
  · rfl
  · exact blocks tableIndex present

theorem writeFile_claimed (ledger : Ledger geometry store region pinned tabled)
    (claimed : ∀ index < data.length, 0 < pinned ((position + index) / geometry.clusterSize)) :
    Ensures (writeFile geometry position data) store fun _ after =>
      Overwritten geometry store after region pinned tabled position data := by
  refine (writeFile_ends store _ data).ensures.mono fun _ after wrote => ?_
  rcases wrote with ⟨rfl, rfl⟩ | ⟨nonempty, room, rfl⟩
  · exact ⟨ledger, rfl, le_rfl, .inl rfl, id, fun _ _ none => absurd rfl none, fun _ _ => rfl⟩
  obtain ⟨coherent, blocks⟩ := ledger.coherent.patch nonempty (fun index inside => ledger.not_isBlock (.inl (claimed index inside)))
    fun index inside => ledger.uncached (claimed index inside)
  have same : SameTable store { store with file := store.file.patch position data } := ⟨rfl, rfl, rfl⟩
  have refcount := Store.refcount_congr same blocks
  refine ⟨⟨coherent, fun other => (refcount other).trans (ledger.counted other), ledger.blocksApart, ledger.regionApart,
    ledger.tablesApart, ledger.keys, ledger.header, fun other listed => ?_⟩, rfl, Nat.le_max_left ..,
    .inr ⟨Nat.le_max_right .., room⟩, fun fits => Nat.max_le.mpr ⟨fits, room⟩, fun _ _ _ => rfl, fun other untouched => ?_⟩
  · rw [refcount]
    exact ledger.free other listed
  simp only [Store.content, currentTable]
  split
  · rfl
  · exact read_patch_untouched store.file nonempty untouched

theorem div_of_inside {start count index : Nat} (inside : start + count ≤ geometry.clusterSize)
    (early : index < count) : (cluster * geometry.clusterSize + start + index) / geometry.clusterSize = cluster := by
  have next : (cluster + 1) * geometry.clusterSize = cluster * geometry.clusterSize + geometry.clusterSize := Nat.succ_mul ..
  exact Nat.div_eq_of_lt_le (by omega) (by omega)

theorem writeFile_pinned (ledger : Ledger geometry store region pinned tabled) {cluster start : Nat} {data : List UInt8}
    (claimed : 0 < pinned cluster) (inside : start + data.length ≤ geometry.clusterSize) :
    Ensures (writeFile geometry (cluster * geometry.clusterSize + start) data) store fun _ after =>
      Patched geometry store after region pinned tabled cluster start data := by
  refine (writeFile_claimed ledger fun index early => by rwa [div_of_inside inside early]).mono fun _ after wrote => ?_
  refine ⟨wrote.ledger, wrote.table, wrote.length, wrote.inFile.imp_right And.left, wrote.fits, fun other => ?_⟩
  split
  · next same =>
    subst same
    rw [Coherent.content_eq_read (ledger.uncached claimed), Coherent.content_eq_read (wrote.ledger.uncached claimed)]
    by_cases empty : data = []
    · subst empty
      have kept := wrote.content other fun index early => absurd early (Nat.not_lt_zero _)
      rw [Coherent.content_eq_read (ledger.uncached claimed),
        Coherent.content_eq_read (wrote.ledger.uncached claimed)] at kept
      simp [kept, overwrite]
    · rw [wrote.file _ _ empty, File.read_patch_of_inside (by omega) (by omega), Nat.add_sub_cancel_left]
  · next differ =>
    refine wrote.content other fun index early same => differ ?_
    rw [← same, div_of_inside inside early]

structure Fresh (geometry : Geometry) (store after : Store) (region : List Nat) (pinned tabled : Nat → Nat) (cluster : Nat)
    (bytes : List UInt8) : Prop extends Keeps geometry store after pinned tabled where
  ledger : Ledger geometry after region (withClaims pinned [cluster]) tabled
  unpinned : pinned cluster = 0
  untabled : tabled cluster = 0
  fresh : after.content geometry cluster = bytes
  inFile : cluster * geometry.clusterSize + geometry.clusterSize ≤ after.file.length
  offset : HostOffset (cluster * geometry.clusterSize)
  fits : store.file.length ≤ geometry.host.maxFileLen → after.file.length ≤ geometry.host.maxFileLen

theorem Fresh.nonzero {after : Store} {bytes : List UInt8} (header : 0 < pinned 0)
    (fresh : Fresh geometry store after region pinned tabled cluster bytes) : cluster ≠ 0 := by
  rintro rfl
  have := fresh.unpinned
  omega

theorem newL2Table_spec (standard : geometry.Standard) (ledger : Ledger geometry store region pinned tabled) (fuel : Nat)
    {bytes : List UInt8} (size : bytes.length = geometry.clusterSize) :
    Spends Store.spare 1 (newL2Table geometry fuel bytes) store fun host after =>
      ∃ cluster, host = cluster * geometry.clusterSize ∧ Fresh geometry store after region pinned tabled cluster bytes := by
  refine .bindLast (allocCluster_spec standard ledger fuel) ?_
  rintro _ claimed ⟨cluster, rfl, allocated⟩
  obtain ⟨unpinned, untabled⟩ := allocated.unclaimed cluster mem_cons_self
  have once : withClaims pinned [cluster] cluster = 1 := by simp [withClaims_cons, unpinned]
  apply Spends.of_kept
  have writes := @writeFile_pinned geometry claimed region (withClaims pinned [cluster]) tabled allocated.ledger cluster 0
    bytes (by omega) (by omega)
  rw [Nat.add_zero] at writes
  refine .bind ((writes).and (writeFile_ends claimed _ bytes).ensures) ?_
  rintro _ written ⟨patched, wrote⟩
  have nonempty : bytes ≠ [] := by
    rintro rfl
    have := geometry.clusterSize_pos
    simp at size
    omega
  have room : cluster * geometry.clusterSize + geometry.clusterSize ≤ geometry.host.maxFileLen := by
    rcases wrote with ⟨empty, _⟩ | ⟨_, room, _⟩
    · exact absurd empty nonempty
    · omega
  rw [mul_div_clusterSize]
  refine .bind (patched.ledger.setSame standard.toSupported once) ?_
  rintro _ after ⟨counted, adjusted⟩
  have plain {other : Nat} (claimed : 0 < withClaims pinned [cluster] other ∨ 0 < tabled other) :
      after.content geometry other = written.content geometry other :=
    adjusted.content other (patched.ledger.not_isBlock claimed)
  refine .pure ⟨Store.spare_congr (adjusted.table.trans patched.table), cluster, rfl, ⟨?_, fun other isClaimed => ?_⟩, counted, unpinned, untabled, ?_, ?_,
    standard.hostOffset room, fun fits => ?_⟩
  · rw [adjusted.length]
    exact allocated.length.trans patched.length
  · have differ : other ≠ cluster := by
      rintro rfl
      omega
    have isClaimed' : 0 < withClaims pinned [cluster] other ∨ 0 < tabled other := by
      simp only [withClaims]
      omega
    rw [plain isClaimed', patched.content, if_neg differ, allocated.content other isClaimed]
  · rw [plain (.inl (by omega)), patched.content, if_pos rfl]
    have covers := allocated.ledger.coherent.length_content cluster
    rw [overwrite, take_zero, nil_append, drop_eq_nil_of_le (by omega), append_nil]
  · rw [adjusted.length]
    have inFile := patched.inFile.resolve_left nonempty
    omega
  · rw [adjusted.length]
    exact patched.fits (allocated.fits fits)

theorem Ledger.retable (ledger : Ledger geometry store region (withClaims pinned [cluster]) tabled)
    (unpinned : pinned cluster = 0) (header : 0 < pinned 0) :
    Ledger geometry store region pinned (withClaims tabled [cluster]) := by
  have here : 0 < withClaims pinned [cluster] cluster := by simp [withClaims_cons]
  have others {other : Nat} (differ : other ≠ cluster) : withClaims pinned [cluster] other = pinned other ∧
      withClaims tabled [cluster] other = tabled other := by
    simp [withClaims_cons, differ]
  have notHere : ¬store.IsBlock geometry cluster := ledger.not_isBlock (.inl here)
  have outside : cluster ∉ region := fun member => by
    have := (ledger.regionApart cluster member).1
    omega
  have less (other : Nat) : pinned other ≤ withClaims pinned [cluster] other := Nat.le_add_right ..
  refine ⟨ledger.coherent, fun other => ?_, fun other isBlock => ?_, fun other member => ?_, fun other isTabled => ?_,
    fun other cached => ?_, header, ledger.free⟩
  · rw [ledger.counted]
    simp only [withClaims]
    omega
  · obtain ⟨outside, zero, zero'⟩ := ledger.blocksApart other isBlock
    have differ : other ≠ cluster := fun same => notHere (same ▸ isBlock)
    rw [(others differ).1] at zero
    rw [(others differ).2]
    exact ⟨outside, zero, zero'⟩
  · obtain ⟨zero, zero'⟩ := ledger.regionApart other member
    have differ : other ≠ cluster := fun same => outside (same ▸ member)
    rw [(others differ).1] at zero
    rw [(others differ).2]
    exact ⟨zero, zero'⟩
  · by_cases same : other = cluster
    · exact same ▸ unpinned
    rw [(others same).2] at isTabled
    have := ledger.tablesApart other isTabled
    have := less other
    omega
  · obtain ⟨outside, zero⟩ := ledger.keys other cached
    have := less other
    exact ⟨outside, by omega⟩

theorem Ledger.dropEntry (supported : geometry.Supported) {entry : Entry} {fuel : Nat}
    (together : isCompressed entry = true → EndsTogether geometry entry)
    (ledger : Ledger geometry store region (withClaims pinned (entryClusters geometry entry)) tabled)
    (header : 0 < pinned 0) : Ensures (adjustEntry geometry fuel .down entry) store fun _ after =>
      Ledger geometry after region pinned tabled ∧ Adjusted geometry store after := by
  refine .ite (fun compressed => ?_) fun plain => ?_
  · rw [entryClusters, if_pos compressed, ← (together compressed).clusters supported] at ledger
    exact ledger.decAllPinned supported header
  rw [entryClusters, if_neg plain] at ledger
  refine .ite (fun present => ?_) fun absent => ?_
  · rw [pointer, if_neg present] at ledger
    exact ledger.decPinned supported header
  · rw [pointer, if_pos (not_not.mp absent), withClaims_nil] at ledger
    exact .pure ⟨ledger, .refl store⟩

theorem Ledger.updatesL2 (ledger : Ledger geometry store region pinned tabled) {index : Nat} {value : Entry}
    {after : Store} (updated : Coherent.UpdatedL2 geometry store after cluster index value) (outside : cluster ∉ region)
    (unpinned : pinned cluster = 0) : Ledger geometry after region pinned tabled where
  coherent := updated.coherent
  counted other := by rw [updated.refcount, updated.table, ledger.counted]
  blocksApart other isBlock := ledger.blocksApart other (updated.toSameTable.isBlock.mp isBlock)
  regionApart := ledger.regionApart
  tablesApart := ledger.tablesApart
  keys other cached := by
    rcases updated.keys _ cached with same | before
    · have equal : other = cluster := Nat.eq_of_mul_eq_mul_right geometry.clusterSize_pos same
      exact equal ▸ ⟨outside, unpinned⟩
    · exact ledger.keys other before
  header := ledger.header
  free other listed := by
    rw [updated.free] at listed
    rw [updated.refcount, Store.Covered, updated.toSameTable.blockHost]
    exact ledger.free other listed

end Vmlab.Disk.Qcow2
