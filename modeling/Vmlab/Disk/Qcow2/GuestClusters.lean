import Vmlab.Disk.Qcow2.GuestSlots

/-!
# The cluster of a write

Where the bytes of a write go: into the cluster that holds the data already, or into
a new one that takes over what the old one shows.
-/

namespace Vmlab.Disk.Qcow2

open Library
open ReadSource (fromEntry)

variable {geometry : Geometry} {image : Image} {region : List Nat} {pinned tabled : Nat → Nat}

def Stale (geometry : Geometry) (image : Image) (guest : Nat) : Prop :=
  isCompressed (image.entryOf geometry guest) = false ∧ hostOf (image.entryOf geometry guest) ≠ 0 ∧
    (isCopied (image.entryOf geometry guest) = true ∨
      image.store.refcount geometry (hostOf (image.entryOf geometry guest) / geometry.clusterSize) = 1) ∧
    isZero (image.entryOf geometry guest) = true

def InPlace (geometry : Geometry) (image : Image) (guest : Nat) : Prop :=
  isCompressed (image.entryOf geometry guest) = false ∧ hostOf (image.entryOf geometry guest) ≠ 0 ∧
    (isCopied (image.entryOf geometry guest) = true ∨
      image.store.refcount geometry (hostOf (image.entryOf geometry guest) / geometry.clusterSize) = 1)

section

theorem Sound.refcount_eq (sound : Sound geometry image region pinned tabled) {cluster : Nat} (claimed : 0 < pinned cluster) :
    image.store.refcount geometry cluster = pinned cluster := by
  have refcount := sound.ledger.refcount_eq (.inl claimed)
  have untabled : tabled cluster = 0 := by
    by_contra isTabled
    have := sound.ledger.tablesApart cluster (by omega)
    omega
  omega

variable (supported : geometry.Supported) (sound : Sound geometry image region pinned tabled)
include supported sound

theorem Sound.pinned_host {guest : Nat} (plain : isCompressed (image.entryOf geometry guest) = false)
    (present : hostOf (image.entryOf geometry guest) ≠ 0) :
    hostOf (image.entryOf geometry guest) / geometry.clusterSize ∈
        entryClusters geometry (image.entryOf geometry guest) ∧
      0 < pinned (hostOf (image.entryOf geometry guest) / geometry.clusterSize) := by
  have own : hostOf (image.entryOf geometry guest) / geometry.clusterSize ∈
      entryClusters geometry (image.entryOf geometry guest) := by
    rw [entryClusters, plain]
    exact mem_pointer.mpr ⟨present, rfl⟩
  exact ⟨own, sound.pinned_pos ((sound.entryAt supported guest).claimed _ own)⟩

theorem Sound.inPlace_congr {after : Image} {tabled' : Nat → Nat} (sound' : Sound geometry after region pinned tabled')
    {guest : Nat} (entry : after.entryOf geometry guest = image.entryOf geometry guest) :
    InPlace geometry after guest ↔ InPlace geometry image guest := by
  unfold InPlace
  rw [entry]
  refine and_congr_right fun plain => and_congr_right fun present => or_congr_right ?_
  have claimed := (sound.pinned_host supported plain present).2
  rw [sound.refcount_eq claimed, sound'.refcount_eq claimed]

theorem Sound.inPlace_pinned {guest table : Nat} (found : TableAt geometry image guest table)
    (inPlace : InPlace geometry image guest) :
    pinned (hostOf (image.entryOf geometry guest) / geometry.clusterSize) = 1 := by
  obtain ⟨plain, present, isCopied | once⟩ := inPlace
  · refine sound.copied table found.mem _ ?_ plain isCopied present
    rw [found.entryOf]
    exact wordAt_mem_content supported sound.ledger.coherent table (Nat.mod_lt guest supported.l2Entries_pos)
  · rwa [sound.refcount_eq (sound.pinned_host supported plain present).2] at once

theorem ownsCluster_spec (guest : Nat) :
    Ensures (ownsCluster geometry (image.entryOf geometry guest)) image fun inPlace after =>
      after.spare = image.spare ∧ (inPlace = true ↔ InPlace geometry image guest) ∧
        after.store.file.length = image.store.file.length ∧ Unnoticed geometry image after region pinned tabled := by
  refine .ite (fun other => ?_) fun plain => ?_
  · refine .pure ⟨rfl, ?_, rfl, .refl sound⟩
    simp only [Bool.or_eq_true, decide_eq_true_eq] at other
    simp only [InPlace, Bool.false_eq_true, false_iff]
    rintro ⟨plain, present, _⟩
    rcases other with compressed | absent
    · rw [plain] at compressed
      cases compressed
    · exact present absent
  simp only [Bool.or_eq_true, decide_eq_true_eq, not_or, Bool.not_eq_true] at plain
  refine .ite (fun copied => ?_) fun uncopied => ?_
  · refine .pure ⟨rfl, ?_, rfl, .refl sound⟩
    simp [InPlace, plain, copied]
  refine .bind (getRefcount_unnoticed supported sound _) ?_
  rintro _ after ⟨length, rfl, fileLength, unnoticed⟩
  refine .pure ⟨length, ?_, fileLength, unnoticed⟩
  simp [InPlace, plain, uncopied]

end

theorem clusterBase_spec (bytewise : image.BackingBytewise) (guest : Nat) :
    Ensures (clusterBase geometry (image.entryOf geometry guest) (guest * geometry.clusterSize)) image fun base after =>
      image = after ∧ base.length = geometry.clusterSize ∧
        ∀ index byte, index < geometry.clusterSize → image.view geometry (guest * geometry.clusterSize + index) = some byte →
          base[index]? = some byte := by
  have size := geometry.clusterSize_pos
  have view (index : Nat) (inside : index < geometry.clusterSize) :
      image.view geometry (guest * geometry.clusterSize + index) = image.sourceByte geometry
        (.fromEntry (image.entryOf geometry guest) index) (guest * geometry.clusterSize + index) := by
    rw [Image.view, Image.sourceAt, (div_mod_of_lt guest inside).1, (div_mod_of_lt guest inside).2]
  generalize image.entryOf geometry guest = entry at view ⊢
  refine .ite (fun compressed => ?_) fun plain => ?_
  · refine (lift_ensures (readCompressedCluster_ends image.store entry).ensures).mono ?_
    rintro bytes _ ⟨_, rfl, rfl, inflated, length⟩
    refine ⟨rfl, length, fun index byte inside shown => ?_⟩
    rw [view index inside, fromEntry, if_pos compressed] at shown
    simpa [Image.sourceByte, inflated, (div_mod_of_lt guest inside).2] using shown
  refine .ite (fun zero => ?_) fun nonzero => ?_
  · refine .pure ⟨rfl, List.length_replicate, fun index byte inside shown => ?_⟩
    rw [view index inside, fromEntry, if_neg plain, if_pos zero] at shown
    rw [List.getElem?_replicate, if_pos inside]
    exact shown
  refine .ite (fun present => ?_) fun absent => ?_
  · refine (lift_ensures (readFile_ends image.store _ _).ensures).mono ?_
    rintro _ _ ⟨_, rfl, rfl, inFile, rfl⟩
    refine ⟨rfl, File.length_read .., fun index byte inside shown => ?_⟩
    rw [view index inside, fromEntry, if_neg plain, if_neg nonzero, if_neg present] at shown
    rw [File.getElem?_read, if_pos inside]
    simp only [Image.sourceByte] at shown
    rwa [if_pos (by omega)] at shown
  have absent := not_not.mp absent
  refine (readUnallocated_ends bytewise (guest * geometry.clusterSize) geometry.clusterSize).ensures.mono ?_
  rintro bytes _ ⟨rfl, length, spells⟩
  refine ⟨rfl, length, fun index byte inside shown => ?_⟩
  rw [view index inside, fromEntry, if_neg plain, if_neg nonzero, if_pos absent] at shown
  rw [← spells index (by omega)]
  exact shown

structure Written (geometry : Geometry) (image after : Image) (offset : Nat) (data : List UInt8) : Prop where
  consistent : ∃ region pinned tabled, Sound geometry after region pinned tabled
  size : after.size = image.size
  backing : after.backingImage = image.backingImage
  outside : ∀ position byte, position < offset ∨ offset + data.length ≤ position →
    image.view geometry position = some byte → after.view geometry position = some byte
  inside : ¬Stale geometry image (offset / geometry.clusterSize) → ∀ index < data.length,
    after.view geometry (offset + index) = data[index]?
  stale : Stale geometry image (offset / geometry.clusterSize) → ∀ index < data.length,
    after.view geometry (offset + index) = some 0
  entry : ∀ other, other ≠ offset / geometry.clusterSize → after.entryOf geometry other = image.entryOf geometry other

theorem Ledger.byteAt_content {store : Store} (ledger : Ledger geometry store region pinned tabled) {cluster index : Nat}
    (claimed : 0 < pinned cluster) (inside : index < geometry.clusterSize) :
    (store.content geometry cluster)[index]? = some (store.file.byteAt (cluster * geometry.clusterSize + index)) := by
  rw [Coherent.content_eq_read (ledger.uncached claimed), File.getElem?_read, if_pos inside]

section

variable {guest table : Nat}

structure Marked (geometry : Geometry) (image after : Image) (region : List Nat) (pinned tabled : Nat → Nat)
    (guest table : Nat) : Prop where
  sound : Sound geometry after region pinned tabled
  slot : Slot geometry after guest table
  source : ∀ index, fromEntry (after.entryOf geometry guest) index =
    .fromEntry (image.entryOf geometry guest) index
  host : hostOf (after.entryOf geometry guest) = hostOf (image.entryOf geometry guest)
  plain : isCompressed (after.entryOf geometry guest) = false
  table : after.store.refcountTable = image.store.refcountTable
  entry : ∀ other, other ≠ guest → after.entryOf geometry other = image.entryOf geometry other
  view : ∀ position byte, image.view geometry position = some byte → after.view geometry position = some byte
  size : after.size = image.size
  backing : after.backingImage = image.backingImage

section

variable {entry : Entry} (plain : isCompressed entry = false)
include plain

theorem entryClusters_withCopied : entryClusters geometry (withCopied entry true) = entryClusters geometry entry := by
  rw [entryClusters, entryClusters, isCompressed_withCopied, plain, pointer_withCopied, if_neg (by decide),
    if_neg (by decide)]

theorem fromEntry_withCopied (index : Nat) :
    fromEntry (withCopied entry true) index = .fromEntry entry index := by
  simp [fromEntry, plain]

end

variable (supported : geometry.Supported) (sound : Sound geometry image region pinned tabled)
  (slot : Slot geometry image guest table)
include supported sound slot

theorem markCopied_spec (inPlace : InPlace geometry image guest) :
    Ensures (if isCopied (image.entryOf geometry guest) then pure ()
        else setL2Entry geometry (table * geometry.clusterSize) (guest % geometry.l2Entries)
          (image.entryOf geometry guest ||| copiedBit) : DiskM Unit) image fun _ after =>
      Marked geometry image after region pinned tabled guest table := by
  have once := sound.inPlace_pinned supported slot.toTableAt inPlace
  have plain := inPlace.1
  refine .ite (fun _ => .pure ?_) fun _ => ?_
  · exact ⟨sound, slot, fun _ => rfl, rfl, plain, rfl, fun _ _ => rfl, fun _ _ shown => shown, rfl, rfl⟩
  obtain ⟨notBlock, outside, unpinned⟩ := sound.plain_table slot.mem
  refine (lift_ensures (Coherent.setL2Entry_spec supported sound.ledger.coherent notBlock
    (Nat.mod_lt guest supported.l2Entries_pos) _)).mono ?_
  rintro _ _ ⟨store, rfl, set⟩
  rw [or_copiedBit] at set
  have others {cluster : Nat} (differ : cluster ≠ table) (claimed : 0 < pinned cluster ∨ 0 < tabled cluster) :
      store.content geometry cluster = image.store.content geometry cluster := by
    rw [set.content cluster (sound.ledger.not_isBlock claimed), if_neg differ]
  have same := @entryClusters_withCopied geometry _ plain
  have updated : Updated geometry image store pinned pinned tabled guest table
      (withCopied (image.entryOf geometry guest) true) := by
    refine ⟨set.length.ge, set.length ▸ sound.fits, ?_, fun other differ claimed => others differ (.inr claimed),
      fun cluster => by rw [same], fun cluster _ => by rw [same], fun _ => ?_, fun _ _ _ => ?_⟩
    · rw [set.content table notBlock, if_pos rfl]
    · rw [hostOf_withCopied]
      exact (sound.entryAt supported guest).aligned plain
    · rw [hostOf_withCopied]
      exact once
  have ledger := sound.ledger.updatesL2 set outside unpinned
  have kept := updated.stillSound supported sound slot ledger
  have entries := updated.entryOf supported sound slot
  have here := (entries guest).trans (if_pos rfl)
  refine ⟨kept, ⟨⟨slot.host, slot.nonzero, slot.mem, slot.inFile.trans set.length.ge⟩, slot.alone⟩, fun index => ?_, ?_, ?_,
    set.table, fun other differ => (entries other).trans (if_neg differ), fun position byte shown => ?_, rfl, rfl⟩
  · rw [here, fromEntry_withCopied plain]
  · rw [here, hostOf_withCopied]
  · rw [here, isCompressed_withCopied, plain]
  · have known := sound.entryAt supported (position / geometry.clusterSize)
    have source : Image.sourceAt geometry { image with store } position = image.sourceAt geometry position := by
      rw [Image.sourceAt, Image.sourceAt, entries]
      split
      · next equal => rw [equal, fromEntry_withCopied plain]
      · rfl
    have backing : ({ image with store } : Image).backingImage = image.backingImage := rfl
    rw [Image.view, source]
    refine Image.sourceByte_kept known.aligned backing set.length.ge (fun host member => ?_) shown
    have claimed := sound.pinned_pos (known.claimed _ member)
    refine sound.ledger.byteAt_eq ledger claimed claimed (others ?_ (.inl claimed))
    rintro equal
    rw [equal] at claimed
    omega

theorem patchSlot_spec (plain : isCompressed (image.entryOf geometry guest) = false)
    (present : hostOf (image.entryOf geometry guest) ≠ 0)
    (once : pinned (hostOf (image.entryOf geometry guest) / geometry.clusterSize) = 1)
    {start : Nat} {data : List UInt8} (inside : start + data.length ≤ geometry.clusterSize) :
    Ensures (liftM (writeFile geometry (hostOf (image.entryOf geometry guest) + start) data) : DiskM Unit) image fun _ after =>
      Sound geometry after region pinned tabled ∧ after.size = image.size ∧ after.backingImage = image.backingImage ∧
        after.store.refcountTable = image.store.refcountTable ∧
        (∀ other, after.entryOf geometry other = image.entryOf geometry other) ∧
        (∀ position byte, position / geometry.clusterSize ≠ guest ∨ position % geometry.clusterSize < start ∨
            start + data.length ≤ position % geometry.clusterSize →
          image.view geometry position = some byte → after.view geometry position = some byte) ∧
        ∀ index < data.length, after.view geometry (guest * geometry.clusterSize + start + index) =
          if isZero (image.entryOf geometry guest) then some 0 else data[index]? := by
  have size := geometry.clusterSize_pos
  obtain ⟨own, claimed⟩ := sound.pinned_host supported plain present
  have aligned := (sound.entryAt supported guest).aligned plain
  have host := div_mul_of_dvd aligned
  obtain ⟨cluster, isCluster⟩ : ∃ cluster, cluster = hostOf (image.entryOf geometry guest) / geometry.clusterSize := ⟨_, rfl⟩
  rw [← isCluster] at own claimed once host
  rw [← host]
  refine (lift_ensures (writeFile_pinned sound.ledger claimed inside)).mono ?_
  rintro _ _ ⟨store, rfl, patched⟩
  have others {other : Nat} (differ : other ≠ cluster) :
      store.content geometry other = image.store.content geometry other := by rw [patched.content, if_neg differ]
  have tables (other : Nat) (member : other ∈ pointers geometry image.l1) :
      store.content geometry other = image.store.content geometry other := others (by
    rintro rfl
    have := (sound.plain_table member).2.2
    omega)
  obtain ⟨kept, _, entries⟩ := sound.sameTables patched.ledger patched.length (patched.fits sound.fits) tables
  -- The bytes of the cluster before and after.
  have covers : start + data.length ≤ (image.store.content geometry cluster).length := by
    rw [sound.ledger.coherent.length_content]
    exact inside
  have byteAt {index : Nat} (within : index < geometry.clusterSize) :
      some (store.file.byteAt (cluster * geometry.clusterSize + index)) =
        if start ≤ index ∧ index < start + data.length then data[index - start]?
        else some (image.store.file.byteAt (cluster * geometry.clusterSize + index)) := by
    rw [← patched.ledger.byteAt_content claimed within, patched.content, if_pos rfl, getElem?_overwrite covers,
      sound.ledger.byteAt_content claimed within]
  refine ⟨kept, rfl, rfl, patched.table, entries, fun position byte away shown => ?_, fun index early => ?_⟩
  · by_cases same : position / geometry.clusterSize = guest
    · have away := away.resolve_left (not_not.mpr same)
      have within := Nat.mod_lt position size
      rw [Image.view, Image.sourceAt, same] at shown
      rw [Image.view, Image.sourceAt, same, entries]
      unfold fromEntry at shown ⊢
      rw [plain, if_neg (by decide)] at shown ⊢
      split
      · next zero => rwa [if_pos zero] at shown
      rename_i nonzero
      rw [if_neg nonzero, if_neg present] at shown
      simp only [Image.sourceByte] at shown ⊢
      split at shown
      · next inFile =>
        have longer := patched.length
        rw [if_pos (by omega), ← host, byteAt within, if_neg (by omega), host]
        exact shown
      · cases shown
    have backing : ({ image with store } : Image).backingImage = image.backingImage := rfl
    refine sound.view_entry supported patched.ledger backing patched.length (entries _) (fun other member => ?_) shown
    have isClaimed := sound.pinned_pos ((sound.entryAt supported _).claimed other member)
    refine ⟨isClaimed, others ?_⟩
    rintro rfl
    exact slot.exclusive supported sound same own once member
  · have within : start + index < geometry.clusterSize := by omega
    have place := div_mod_of_lt guest within
    rw [← Nat.add_assoc] at place
    rw [Image.view, Image.sourceAt, place.1, place.2, entries]
    unfold fromEntry
    rw [plain, if_neg (by decide)]
    split
    · rfl
    have inFile := patched.inFile.resolve_left (by rintro rfl; cases early)
    simp only [Image.sourceByte]
    rw [if_pos (by rw [← host]; omega), ← host, byteAt within, if_pos (by omega), Nat.add_sub_cancel_left]

end

variable {guest table fuel : Nat}

def replaceCluster (geometry : Geometry) (fuel l2Host l2Index : Nat) (entry : Entry) (bytes : List UInt8) : StoreM Unit := do
  let newHost ← newL2Table geometry fuel bytes
  adjustEntry geometry fuel .down entry
  setL2Entry geometry l2Host l2Index (owned newHost)

theorem lift_replaceCluster (l2Host l2Index : Nat) (entry : Entry) (bytes : List UInt8) : (do
      let newHost ← allocCluster geometry fuel
      writeFile geometry newHost bytes
      setClusterRefcount geometry fuel (newHost / geometry.clusterSize) 1
      adjustEntry geometry fuel .down entry
      setL2Entry geometry l2Host l2Index (owned newHost) : DiskM Unit) =
    liftM (replaceCluster geometry fuel l2Host l2Index entry bytes) := by
  simp only [replaceCluster, newL2Table, bind_assoc, pure_bind, lift_bind]

def exchanged (geometry : Geometry) (pinned : Nat → Nat) (entry : Entry) (fresh cluster : Nat) : Nat :=
  pinned cluster + [fresh].count cluster - (entryClusters geometry entry).count cluster

/-- The refcounts follow the clusters that the entry uses. -/
def EndsWell (geometry : Geometry) (image : Image) (guest : Nat) : Prop :=
  isCompressed (image.entryOf geometry guest) = true → EndsTogether geometry (image.entryOf geometry guest)

structure Replaced (geometry : Geometry) (image after : Image) (region : List Nat) (pinned tabled : Nat → Nat)
    (guest : Nat) (bytes : List UInt8) : Prop where
  sound : Sound geometry after region pinned tabled
  size : after.size = image.size
  backing : after.backingImage = image.backingImage
  entry : ∀ other, other ≠ guest → after.entryOf geometry other = image.entryOf geometry other
  others : ∀ position byte, position / geometry.clusterSize ≠ guest →
    image.view geometry position = some byte → after.view geometry position = some byte
  fresh : ∀ index < geometry.clusterSize, after.view geometry (guest * geometry.clusterSize + index) = bytes[index]?

theorem replaced_of_updated (supported : geometry.Supported) (sound : Sound geometry image region pinned tabled)
    (slot : Slot geometry image guest table) {store : Store} {pinned' : Nat → Nat} {fresh : Nat} {bytes : List UInt8}
    (updated : Updated geometry image store pinned pinned' tabled guest table (owned (fresh * geometry.clusterSize)))
    (ledger : Ledger geometry store region pinned' tabled) (offset : HostOffset (fresh * geometry.clusterSize))
    (nonzero : fresh ≠ 0) (claimed : 0 < pinned' fresh) (content : store.content geometry fresh = bytes)
    (inFile : fresh * geometry.clusterSize + geometry.clusterSize ≤ store.file.length)
    (kept : ∀ cluster, 0 < pinned cluster → store.content geometry cluster = image.store.content geometry cluster) :
    Replaced geometry image { image with store } region pinned' tabled guest bytes := by
  have entries := updated.entryOf supported sound slot
  have sound' := updated.stillSound supported sound slot ledger
  refine ⟨sound', rfl, rfl, fun other differ => (entries other).trans (if_neg differ), fun position byte differ shown => ?_,
    fun index inside => ?_⟩
  · have backing : ({ image with store } : Image).backingImage = image.backingImage := rfl
    have same := (entries (position / geometry.clusterSize)).trans (if_neg differ)
    refine sound.view_entry supported ledger backing updated.length same (fun cluster member => ?_) shown
    refine ⟨?_, kept cluster (sound.pinned_pos ((sound.entryAt supported _).claimed cluster member))⟩
    rw [← same] at member
    exact sound'.pinned_pos ((sound'.entryAt supported _).claimed cluster member)
  have size := geometry.clusterSize_pos
  have place := div_mod_of_lt guest inside
  have host := hostOf_owned offset
  have present : hostOf (owned (fresh * geometry.clusterSize)) ≠ 0 := by
    rw [host]
    exact Nat.mul_ne_zero nonzero size.ne'
  have source : fromEntry (owned (fresh * geometry.clusterSize)) index =
      .file (fresh * geometry.clusterSize + index) := by
    rw [fromEntry, isCompressed_owned offset, isZero_owned offset, if_neg (by decide), if_neg (by decide),
      if_neg present, host]
  rw [Image.view, Image.sourceAt, place.1, place.2, (entries guest).trans (if_pos rfl), source, ← content,
    ledger.byteAt_content claimed inside]
  have within : fresh * geometry.clusterSize + index < store.file.length := by omega
  exact if_pos within

theorem replaceCluster_spec (standard : geometry.Standard) (sound : Sound geometry image region pinned tabled)
    (slot : Slot geometry image guest table) (together : EndsWell geometry image guest) {bytes : List UInt8} (length : bytes.length = geometry.clusterSize) :
    Spends Image.spare 1 (liftM (replaceCluster geometry fuel (table * geometry.clusterSize) (guest % geometry.l2Entries)
        (image.entryOf geometry guest) bytes) : DiskM Unit) image fun _ after =>
      ∃ pinned', Replaced geometry image after region pinned' tabled guest bytes := by
  have supported := standard.toSupported
  obtain ⟨notBlock, outside, unpinned⟩ := sound.plain_table slot.mem
  have tableClaim := sound.tabled_pos slot.mem
  have used (cluster : Nat) : (entryClusters geometry (image.entryOf geometry guest)).count cluster ≤
      (image.dataClusters geometry).count cluster := by
    have := slot.count_other supported sound.ledger.coherent cluster
    omega
  refine (lift_spends (@Spends.bindLast _ _ _ _ _ _ _ _ _ _
    (fun _ store => ∃ pinned', Replaced geometry image { image with store } region pinned' tabled guest bytes)
    (newL2Table_spec standard sound.ledger fuel length) ?_)).mono ?_
  · rintro _ filled ⟨fresh, rfl, isFresh⟩
    have unpinnedFresh := isFresh.unpinned
    have unusedFresh : (entryClusters geometry (image.entryOf geometry guest)).count fresh = 0 := by
      have := used fresh
      have := sound.data fresh
      omega
    have claims (cluster : Nat) : exchanged geometry pinned (image.entryOf geometry guest) fresh cluster +
        (entryClusters geometry (image.entryOf geometry guest)).count cluster = withClaims pinned [fresh] cluster := by
      have := used cluster
      have := sound.data cluster
      simp only [exchanged, withClaims]
      omega
    have header : 0 < exchanged geometry pinned (image.entryOf geometry guest) fresh 0 := by
      have := used 0
      have := sound.header
      simp only [exchanged]
      omega
    have once : exchanged geometry pinned (image.entryOf geometry guest) fresh fresh = 1 := by
      simp only [exchanged, List.count_singleton_self]
      omega
    have differ : fresh ≠ table := by
      rintro rfl
      have := isFresh.untabled
      omega
    have ledger := isFresh.ledger.congr claims fun _ => rfl
    apply Spends.of_kept
    refine .bind (ledger.dropEntry supported together header) ?_
    rintro _ dropped ⟨ledger', adjusted⟩
    have plainTable : ¬dropped.IsBlock geometry table := ledger'.not_isBlock (.inr tableClaim)
    have unpinned' : exchanged geometry pinned (image.entryOf geometry guest) fresh table = 0 :=
      ledger'.tablesApart table tableClaim
    refine (Coherent.setL2Entry_spec supported ledger'.coherent plainTable (Nat.mod_lt guest supported.l2Entries_pos) _).mono
      fun _ store set => ?_
    have ledger'' := ledger'.updatesL2 set outside unpinned'
    have kept {cluster : Nat} (claimed : 0 < withClaims pinned [fresh] cluster ∨ 0 < tabled cluster) :
        dropped.content geometry cluster = filled.content geometry cluster :=
      adjusted.content cluster (isFresh.ledger.not_isBlock claimed)
    have plain {cluster : Nat} (claimed : 0 < withClaims pinned [fresh] cluster ∨ 0 < tabled cluster) :
        ¬dropped.IsBlock geometry cluster := fun isBlock =>
      isFresh.ledger.not_isBlock claimed (adjusted.toSameTable.isBlock.mp isBlock)
    have raised {cluster : Nat} (claimed : 0 < pinned cluster ∨ 0 < tabled cluster) :
        0 < withClaims pinned [fresh] cluster ∨ 0 < tabled cluster := by
      simp only [withClaims]
      omega
    have others {cluster : Nat} (apart : cluster ≠ table) (claimed : 0 < pinned cluster ∨ 0 < tabled cluster) :
        store.content geometry cluster = image.store.content geometry cluster := by
      rw [set.content cluster (plain (raised claimed)), if_neg apart, kept (raised claimed), isFresh.content cluster claimed]
    have fileLength : filled.file.length = store.file.length := by rw [set.length, adjusted.length]
    have freshClaim : 0 < withClaims pinned [fresh] fresh ∨ 0 < tabled fresh := .inl (by simp [withClaims_cons])
    have refers : entryClusters geometry (owned (fresh * geometry.clusterSize)) = [fresh] := by
      rw [entryClusters, isCompressed_owned isFresh.offset, if_neg (by decide), pointer, hostOf_owned isFresh.offset, if_neg,
        mul_div_clusterSize]
      exact Nat.mul_ne_zero (isFresh.nonzero sound.ledger.header) geometry.clusterSize_pos.ne'
    have updated : Updated geometry image store pinned (exchanged geometry pinned (image.entryOf geometry guest) fresh) tabled
        guest table (owned (fresh * geometry.clusterSize)) := by
      refine ⟨fileLength ▸ isFresh.length, fileLength ▸ isFresh.fits sound.fits, ?_,
        fun other apart claimed => others apart (.inr claimed), fun cluster => ?_, fun cluster single => ?_, fun _ => ?_,
        fun _ _ _ => ?_⟩
      · rw [set.content table plainTable, if_pos rfl, kept (.inr tableClaim), isFresh.content table (.inr tableClaim)]
      · rw [refers]
        exact claims cluster
      · rw [refers, List.count_singleton, if_neg]
        · exact Nat.zero_le _
        intro same
        have equal : fresh = cluster := by simpa using same
        rw [equal] at unpinnedFresh
        omega
      · rw [hostOf_owned isFresh.offset]
        exact Nat.dvd_mul_left ..
      · rw [hostOf_owned isFresh.offset, mul_div_clusterSize]
        exact once
    refine ⟨Store.spare_congr (set.table.trans adjusted.table), _, replaced_of_updated supported sound slot updated ledger'' isFresh.offset (isFresh.nonzero sound.ledger.header)
      (by omega) ?_ (fileLength ▸ isFresh.inFile) fun cluster claimed => others ?_ (.inl claimed)⟩
    · rw [set.content fresh (plain freshClaim), if_neg differ, kept freshClaim, isFresh.fresh]
    · rintro rfl
      omega
  · rintro _ _ ⟨store, rfl, replaced⟩
    exact replaced

end Vmlab.Disk.Qcow2
