import Vmlab.Disk.Qcow2.GuestReads

/-!
# The slot of a guest cluster

An L2 table that only one L1 entry refers to can be changed in place. The
references of the active layer are then those of the slot and of all others.
-/

namespace Vmlab.Disk.Qcow2

open Library List

variable {geometry : Geometry} {image : Image} {region : List Nat} {pinned tabled : Nat → Nat}

structure Slot (geometry : Geometry) (image : Image) (guest table : Nat) : Prop
    extends TableAt geometry image guest table where
  alone : (pointers geometry image.l1).count table = 1

def Image.otherClusters (geometry : Geometry) (image : Image) (table index : Nat) : List Nat :=
  (pointers geometry image.l1).flatMap fun other =>
    if other = table then
      ((bytesToWords (image.store.content geometry table)).set index 0).flatMap (entryClusters geometry)
    else image.store.tableClusters geometry other

theorem TableAt.l1Entry {guest table : Nat} (found : TableAt geometry image guest table) :
    ∃ entry, image.l1[guest / geometry.l2Entries]? = some entry ∧ hostOf entry = table * geometry.clusterSize ∧
      pointer geometry entry = [table] := by
  have host := found.host
  have nonzero := found.nonzero
  rw [Image.tableOf, getD_eq_getElem?_getD] at host nonzero
  cases held : image.l1[guest / geometry.l2Entries]? with
  | none =>
    rw [held] at nonzero
    exact absurd hostOf_zero nonzero
  | some entry =>
    rw [held, Option.getD_some] at host nonzero
    exact ⟨entry, rfl, host, by rw [pointer, if_neg nonzero, host, mul_div_clusterSize]⟩

theorem Slot.same_index {guest table other : Nat} (slot : Slot geometry image guest table)
    (found : TableAt geometry image other table) : other / geometry.l2Entries = guest / geometry.l2Entries := by
  by_contra differ
  obtain ⟨entry, held, _, points⟩ := slot.toTableAt.l1Entry
  obtain ⟨entry', held', _, points'⟩ := found.l1Entry
  have replaced := @count_flatMap_set _ _ _ (pointer geometry) _ _ _ held 0 table
  have alone := slot.alone
  have still : table ∈ (image.l1.set (guest / geometry.l2Entries) 0).flatMap (pointer geometry) := by
    have kept : (image.l1.set (guest / geometry.l2Entries) 0)[other / geometry.l2Entries]? = some entry' := by
      rw [getElem?_set_ne (Ne.symm differ)]
      exact held'
    exact mem_flatMap.mpr ⟨entry', mem_of_getElem? kept, by rw [points']; exact mem_cons_self⟩
  have occurs := count_pos_iff.mpr still
  rw [points, pointer_of_hostOf_eq_zero hostOf_zero, count_nil, count_singleton_self] at replaced
  rw [pointers] at alone
  omega

section

variable {guest table : Nat} (supported : geometry.Supported) (coherent : Coherent geometry image.store)
  (slot : Slot geometry image guest table)

include supported coherent slot

theorem Slot.word : (bytesToWords (image.store.content geometry table))[guest % geometry.l2Entries]? =
    some (image.entryOf geometry guest) := by
  have inside := Nat.mod_lt guest supported.l2Entries_pos
  have entries := supported.l2Entries_mul
  rw [getElem?_bytesToWords, if_pos, slot.toTableAt.entryOf]
  rw [coherent.length_content]
  omega

theorem Slot.count_other (cluster : Nat) :
    (image.otherClusters geometry table (guest % geometry.l2Entries)).count cluster +
      (entryClusters geometry (image.entryOf geometry guest)).count cluster =
        (image.dataClusters geometry).count cluster := by
  have cleared := @count_flatMap_set _ _ _ (entryClusters geometry) _ _ _ (slot.word supported coherent) 0 cluster
  rw [entryClusters_zero, count_nil] at cleared
  have updated := @count_flatMap_update _ _ _ _ (image.store.tableClusters geometry) (fun other =>
    if other = table then
      ((bytesToWords (image.store.content geometry table)).set (guest % geometry.l2Entries) 0).flatMap
        (entryClusters geometry)
    else image.store.tableClusters geometry other) table (fun other differ => if_neg differ)
    (pointers geometry image.l1) cluster
  rw [slot.alone, Nat.one_mul, Nat.one_mul, if_pos rfl] at updated
  rw [Image.otherClusters, Image.dataClusters]
  simp only [Store.tableClusters] at updated ⊢
  omega

end

section

variable {guest table other : Nat} (supported : geometry.Supported)
  (sound : Sound geometry image region pinned tabled) (slot : Slot geometry image guest table)
  (differ : other ≠ guest)
include supported sound slot differ

theorem Slot.mem_other {cluster : Nat} (member : cluster ∈ entryClusters geometry (image.entryOf geometry other)) :
    cluster ∈ image.otherClusters geometry table (guest % geometry.l2Entries) := by
  by_cases present : image.tableOf geometry other = 0
  · rw [Image.entryOf, if_pos present, entryClusters_zero] at member
    cases member
  have found := sound.tableAt present
  generalize image.tableOf geometry other / geometry.clusterSize = host at found
  refine mem_flatMap.mpr ⟨host, found.mem, ?_⟩
  have word := (getElem?_bytesToWords (image.store.content geometry host) (other % geometry.l2Entries)).trans
    (if_pos (by
      have inside := Nat.mod_lt other supported.l2Entries_pos
      have entries := supported.l2Entries_mul
      rw [sound.ledger.coherent.length_content]
      omega))
  rw [found.entryOf] at member
  split
  · next same =>
    subst same
    have sameIndex := slot.same_index found
    have apart : guest % geometry.l2Entries ≠ other % geometry.l2Entries := fun equal => differ (by
      rw [← Nat.div_add_mod other geometry.l2Entries, ← Nat.div_add_mod guest geometry.l2Entries, sameIndex, equal])
    rw [← getElem?_set_ne apart] at word
    exact mem_flatMap.mpr ⟨_, mem_of_getElem? word, member⟩
  · exact mem_flatMap.mpr ⟨_, mem_of_getElem? word, member⟩

theorem Slot.exclusive {cluster : Nat}
    (own : cluster ∈ entryClusters geometry (image.entryOf geometry guest)) (once : pinned cluster = 1) :
    cluster ∉ entryClusters geometry (image.entryOf geometry other) := fun member => by
  have counted := slot.count_other supported sound.ledger.coherent cluster
  have shared := count_pos_iff.mpr (slot.mem_other supported sound differ member)
  have owns := count_pos_iff.mpr own
  have claims := sound.data cluster
  omega

end

section

variable {guest table : Nat}

structure Updated (geometry : Geometry) (image : Image) (after : Store) (pinned pinned' tabled : Nat → Nat)
    (guest table : Nat) (value : Entry) : Prop where
  length : image.store.file.length ≤ after.file.length
  fits : after.file.length ≤ geometry.host.maxFileLen
  slot : after.content geometry table = setWord (image.store.content geometry table) (guest % geometry.l2Entries) value
  others : ∀ other, other ≠ table → 0 < tabled other → after.content geometry other = image.store.content geometry other
  claims : ∀ cluster, pinned' cluster + (entryClusters geometry (image.entryOf geometry guest)).count cluster =
    pinned cluster + (entryClusters geometry value).count cluster
  single : ∀ cluster, pinned cluster = 1 → (entryClusters geometry value).count cluster ≤
    (entryClusters geometry (image.entryOf geometry guest)).count cluster
  aligned : isCompressed value = false → geometry.clusterSize ∣ hostOf value
  copied : isCompressed value = false → isCopied value = true → hostOf value ≠ 0 →
    pinned' (hostOf value / geometry.clusterSize) = 1

variable (supported : geometry.Supported) (sound : Sound geometry image region pinned tabled)
  (slot : Slot geometry image guest table) {after : Store} {pinned' : Nat → Nat} {value : Entry}
  (updated : Updated geometry image after pinned pinned' tabled guest table value)

include supported sound updated

theorem Updated.words : bytesToWords (after.content geometry table) =
    (bytesToWords (image.store.content geometry table)).set (guest % geometry.l2Entries) value := by
  have inside := Nat.mod_lt guest supported.l2Entries_pos
  have entries := supported.l2Entries_mul
  rw [updated.slot, bytesToWords_setWord]
  rw [sound.ledger.coherent.length_content]
  omega

include slot

theorem Updated.count (cluster : Nat) : (Image.dataClusters geometry { image with store := after }).count cluster +
      (entryClusters geometry (image.entryOf geometry guest)).count cluster =
        (image.dataClusters geometry).count cluster + (entryClusters geometry value).count cluster := by
  have replaced := @count_flatMap_set _ _ _ (entryClusters geometry) _ _ _
    (slot.word supported sound.ledger.coherent) value cluster
  rw [← updated.words supported sound] at replaced
  have same (other : Nat) (member : other ∈ pointers geometry image.l1) (differ : other ≠ table) :
      after.tableClusters geometry other = image.store.tableClusters geometry other := by
    rw [Store.tableClusters, Store.tableClusters, updated.others other differ (sound.tabled_pos member)]
  -- The tables of the active layer are all that counts, so others may be taken as unchanged.
  have restricted : (pointers geometry image.l1).flatMap (after.tableClusters geometry) =
      (pointers geometry image.l1).flatMap fun other =>
        if other = table then after.tableClusters geometry table else image.store.tableClusters geometry other := by
    apply flatMap_congr
    intro other member
    split
    · next equal => rw [equal]
    · next differ => exact same other member differ
  have changed := @count_flatMap_update _ _ _ _ (image.store.tableClusters geometry) (fun other =>
    if other = table then after.tableClusters geometry table else image.store.tableClusters geometry other) table
    (fun other differ => if_neg differ) (pointers geometry image.l1) cluster
  rw [← restricted, slot.alone, Nat.one_mul, Nat.one_mul, if_pos rfl] at changed
  simp only [Image.dataClusters, Store.tableClusters] at changed ⊢
  omega

theorem Updated.stillSound (ledger : Ledger geometry after region pinned' tabled) :
    Sound geometry { image with store := after } region pinned' tabled := by
  have words := updated.words supported sound
  have counts := updated.count supported sound slot
  refine ⟨ledger, sound.tables, fun cluster => ?_, ?_, fun entry member present => ?_,
    fun other member entry listed plain => ?_, fun other member entry listed plain isCopied present => ?_, updated.fits⟩
  · have := counts cluster
    have := updated.claims cluster
    have := sound.data cluster
    omega
  · have := counts 0
    have := updated.claims 0
    have := sound.header
    omega
  · obtain ⟨aligned, inFile⟩ := sound.tableHosts entry member present
    exact ⟨aligned, inFile.trans updated.length⟩
  · have listed : entry ∈ bytesToWords (after.content geometry other) := listed
    by_cases same : other = table
    · rw [same, words] at listed
      rcases mem_or_eq_of_mem_set listed with old | rfl
      · exact sound.dataHosts table (same ▸ member) entry old plain
      · exact updated.aligned plain
    · rw [updated.others other same (sound.tabled_pos member)] at listed
      exact sound.dataHosts other member entry listed plain
  · have listed : entry ∈ bytesToWords (after.content geometry other) := listed
    have refers : hostOf entry / geometry.clusterSize ∈ Image.dataClusters geometry { image with store := after } := by
      refine mem_flatMap.mpr ⟨other, member, mem_flatMap.mpr ⟨entry, listed, ?_⟩⟩
      rw [entryClusters, plain]
      exact mem_pointer.mpr ⟨present, rfl⟩
    have occurs := count_pos_iff.mpr refers
    -- An entry that stays keeps its cluster to itself.
    have stays (once : pinned (hostOf entry / geometry.clusterSize) = 1) :
        pinned' (hostOf entry / geometry.clusterSize) = 1 := by
      have := counts (hostOf entry / geometry.clusterSize)
      have := updated.claims (hostOf entry / geometry.clusterSize)
      have := updated.single _ once
      have := sound.data (hostOf entry / geometry.clusterSize)
      omega
    by_cases same : other = table
    · rw [same, words] at listed
      rcases mem_or_eq_of_mem_set listed with old | rfl
      · exact stays (sound.copied table (same ▸ member) entry old plain isCopied present)
      · exact updated.copied plain isCopied present
    · rw [updated.others other same (sound.tabled_pos member)] at listed
      exact stays (sound.copied other member entry listed plain isCopied present)

theorem Updated.entryOf (other : Nat) : Image.entryOf geometry { image with store := after } other =
    if other = guest then value else image.entryOf geometry other := by
  have inside := Nat.mod_lt guest supported.l2Entries_pos
  have entries := supported.l2Entries_mul
  have room : 8 * (guest % geometry.l2Entries) + 8 ≤ (image.store.content geometry table).length := by
    rw [sound.ledger.coherent.length_content]
    omega
  split
  · next same =>
    subst same
    have found : TableAt geometry { image with store := after } other table :=
      ⟨slot.host, slot.nonzero, slot.mem, slot.inFile.trans updated.length⟩
    rw [found.entryOf]
    show wordAt (after.content geometry table) _ = _
    rw [updated.slot, wordAt_setWord_self room]
  · next differ =>
    by_cases present : image.tableOf geometry other = 0
    · rw [Image.entryOf, Image.entryOf, if_pos present]
      exact if_pos present
    have found := sound.tableAt present
    generalize image.tableOf geometry other / geometry.clusterSize = host at found
    have found' : TableAt geometry { image with store := after } other host :=
      ⟨found.host, found.nonzero, found.mem, found.inFile.trans updated.length⟩
    rw [found.entryOf, found'.entryOf]
    show wordAt (after.content geometry host) _ = _
    by_cases same : host = table
    · subst same
      have apart : other % geometry.l2Entries ≠ guest % geometry.l2Entries := fun equal => differ (by
        rw [← Nat.div_add_mod other geometry.l2Entries, ← Nat.div_add_mod guest geometry.l2Entries,
          slot.same_index found, equal])
      rw [updated.slot, wordAt_setWord_of_ne room apart]
    · rw [updated.others host same (sound.tabled_pos found.mem)]

end

section

structure Prepared (geometry : Geometry) (image after : Image) (region : List Nat) (pinned tabled : Nat → Nat)
    (guest table : Nat) : Prop where
  sound : Sound geometry after region pinned tabled
  slot : Slot geometry after guest table
  entry : ∀ other, after.entryOf geometry other = image.entryOf geometry other
  view : ∀ position byte, image.view geometry position = some byte → after.view geometry position = some byte
  size : after.size = image.size
  backing : after.backingImage = image.backingImage

def Store.tableContent (geometry : Geometry) (store : Store) (entry : Entry) : List UInt8 :=
  if hostOf entry = 0 then List.replicate geometry.clusterSize 0
  else store.content geometry (hostOf entry / geometry.clusterSize)

theorem entryClusters_zeros (count : Nat) :
    (bytesToWords (replicate count 0)).flatMap (entryClusters geometry) = [] := by
  rw [flatMap_eq_nil_iff]
  intro entry member
  obtain ⟨index, _, rfl⟩ := mem_map.mp member
  rw [wordAt_zeros, entryClusters_zero]

variable {guest table : Nat} {old : Entry} {after : Image} {tabled' : Nat → Nat}

structure Retabled (geometry : Geometry) (image after : Image) (pinned tabled tabled' : Nat → Nat) (guest table : Nat)
    (old : Entry) : Prop extends Keeps geometry image.store after.store pinned tabled where
  held : image.l1[guest / geometry.l2Entries]? = some old
  l1 : after.l1 = image.l1.set (guest / geometry.l2Entries) (owned (table * geometry.clusterSize))
  claims : ∀ cluster, tabled' cluster + (pointer geometry old).count cluster = tabled cluster + [table].count cluster
  unpinned : pinned table = 0
  untabled : tabled table = 0
  copy : after.store.content geometry table = image.store.tableContent geometry old
  inFile : table * geometry.clusterSize + geometry.clusterSize ≤ after.store.file.length
  offset : HostOffset (table * geometry.clusterSize)
  nonzero : table ≠ 0
  fits : after.store.file.length ≤ geometry.host.maxFileLen
  size : after.size = image.size
  backing : after.backingImage = image.backingImage

variable (supported : geometry.Supported) (sound : Sound geometry image region pinned tabled)
  (retabled : Retabled geometry image after pinned tabled tabled' guest table old)

include retabled

theorem Retabled.host_ne : table * geometry.clusterSize ≠ 0 :=
  Nat.mul_ne_zero retabled.nonzero geometry.clusterSize_pos.ne'

theorem Retabled.pointer_owned : pointer geometry (owned (table * geometry.clusterSize)) = [table] := by
  rw [pointer, hostOf_owned retabled.offset, if_neg retabled.host_ne, mul_div_clusterSize]

theorem Retabled.count_l1 (cluster : Nat) : (pointers geometry after.l1).count cluster +
    (pointer geometry old).count cluster = (pointers geometry image.l1).count cluster + [table].count cluster := by
  have replaced := @count_flatMap_set _ _ _ (pointer geometry) _ _ _ retabled.held
    (owned (table * geometry.clusterSize)) cluster
  rw [retabled.pointer_owned] at replaced
  rw [retabled.l1]
  exact replaced

theorem Retabled.mem_l1 {other : Nat} (member : other ∈ pointers geometry after.l1) :
    other = table ∨ other ≠ table ∧ other ∈ pointers geometry image.l1 := by
  by_cases same : other = table
  · exact .inl same
  have counted := retabled.count_l1 other
  have occurs := count_pos_iff.mpr member
  rw [count_singleton, if_neg (by simpa using Ne.symm same)] at counted
  exact .inr ⟨same, count_pos_iff.mp (by omega)⟩

theorem Retabled.old_mem (present : hostOf old ≠ 0) : hostOf old / geometry.clusterSize ∈ pointers geometry image.l1 :=
  mem_pointers.mpr ⟨old, mem_of_getElem? retabled.held, present, rfl⟩

theorem Retabled.tableClusters : (pointer geometry old).flatMap (image.store.tableClusters geometry) =
    after.store.tableClusters geometry table := by
  rw [Store.tableClusters, retabled.copy, Store.tableContent, pointer]
  split
  · rw [entryClusters_zeros]
    rfl
  · rw [flatMap_singleton, Store.tableClusters]

theorem Retabled.mem_words {entry : Entry} (present : hostOf entry ≠ 0)
    (listed : entry ∈ bytesToWords (after.store.content geometry table)) :
    ∃ other ∈ pointers geometry image.l1, entry ∈ bytesToWords (image.store.content geometry other) := by
  rw [retabled.copy, Store.tableContent] at listed
  split at listed
  · obtain ⟨index, _, rfl⟩ := mem_map.mp listed
    rw [wordAt_zeros] at present
    exact absurd hostOf_zero present
  · next some => exact ⟨_, retabled.old_mem some, listed⟩

include sound

theorem Retabled.fresh : table ∉ pointers geometry image.l1 := fun member => by
  have := sound.tabled_pos member
  have := retabled.untabled
  omega

theorem Retabled.content_old {other : Nat} (member : other ∈ pointers geometry image.l1) :
    after.store.content geometry other = image.store.content geometry other :=
  retabled.content other (.inr (sound.tabled_pos member))

theorem Retabled.dataClusters (cluster : Nat) :
    (after.dataClusters geometry).count cluster = (image.dataClusters geometry).count cluster := by
  have replaced := @count_flatMap_set _ _ _ (fun entry => (pointer geometry entry).flatMap (after.store.tableClusters geometry))
    _ _ _ retabled.held (owned (table * geometry.clusterSize)) cluster
  have kept (entries : List Nat) (known : ∀ other ∈ entries, other ∈ pointers geometry image.l1) :
      entries.flatMap (after.store.tableClusters geometry) = entries.flatMap (image.store.tableClusters geometry) :=
    flatMap_congr fun other member => by
      rw [Store.tableClusters, Store.tableClusters, retabled.content_old sound (known other member)]
  have oldClusters : (pointer geometry old).flatMap (after.store.tableClusters geometry) =
      after.store.tableClusters geometry table := by
    rw [kept, retabled.tableClusters]
    intro other member
    obtain ⟨present, rfl⟩ := mem_pointer.mp member
    exact retabled.old_mem present
  rw [oldClusters, retabled.pointer_owned, flatMap_singleton] at replaced
  have before : image.l1.flatMap (fun entry => (pointer geometry entry).flatMap (after.store.tableClusters geometry)) =
      image.dataClusters geometry := by
    rw [← flatMap_assoc]
    exact kept _ fun _ member => member
  have now : (image.l1.set (guest / geometry.l2Entries) (owned (table * geometry.clusterSize))).flatMap
      (fun entry => (pointer geometry entry).flatMap (after.store.tableClusters geometry)) = after.dataClusters geometry := by
    rw [← flatMap_assoc, ← retabled.l1]
    rfl
  rw [before, now] at replaced
  omega

theorem Retabled.entryOf (other : Nat) : after.entryOf geometry other = image.entryOf geometry other := by
  have slotHost := hostOf_owned retabled.offset
  have nonzero := retabled.host_ne
  have inside : guest / geometry.l2Entries < image.l1.length := (List.getElem?_eq_some_iff.mp retabled.held).1
  by_cases same : other / geometry.l2Entries = guest / geometry.l2Entries
  · have here : after.tableOf geometry other = table * geometry.clusterSize := by
      rw [Image.tableOf, retabled.l1, same, getD_eq_getElem?_getD, getElem?_set_self inside]
      exact slotHost
    have before : image.tableOf geometry other = hostOf old := by
      rw [Image.tableOf, same, getD_eq_getElem?_getD, retabled.held]
      rfl
    rw [Image.entryOf, Image.entryOf, here, if_neg nonzero, mul_div_clusterSize, retabled.copy, before, Store.tableContent]
    split
    · rw [wordAt_zeros]
    · rfl
  have here : after.tableOf geometry other = image.tableOf geometry other := by
    rw [Image.tableOf, retabled.l1, getD_eq_getElem?_getD, getElem?_set_ne (Ne.symm same), ← getD_eq_getElem?_getD]
    rfl
  rw [Image.entryOf, Image.entryOf, here]
  split
  · rfl
  · next present => rw [retabled.content_old sound (sound.tableAt present).mem]

include supported

theorem Retabled.prepared (ledger : Ledger geometry after.store region pinned tabled') :
    Prepared geometry image after region pinned tabled' guest table := by
  have slotHost := hostOf_owned retabled.offset
  have nonzero := retabled.host_ne
  have inside : guest / geometry.l2Entries < image.l1.length := (List.getElem?_eq_some_iff.mp retabled.held).1
  have kept : Sound geometry after region pinned tabled' := by
    refine ⟨ledger, fun cluster => ?_, fun cluster => ?_, ?_, fun entry member present => ?_,
      fun other member entry listed plain => ?_, fun other member entry listed plain isCopied present => ?_, retabled.fits⟩
    · have := retabled.count_l1 cluster
      have := retabled.claims cluster
      have := sound.tables cluster
      omega
    · rw [retabled.dataClusters sound]
      exact sound.data cluster
    · rw [retabled.dataClusters sound]
      exact sound.header
    · rw [retabled.l1] at member
      rcases mem_or_eq_of_mem_set member with before | rfl
      · obtain ⟨aligned, inFile⟩ := sound.tableHosts entry before present
        exact ⟨aligned, inFile.trans retabled.length⟩
      · rw [slotHost]
        exact ⟨Nat.dvd_mul_left .., retabled.inFile⟩
    · by_cases present : hostOf entry = 0
      · rw [present]
        exact Nat.dvd_zero _
      rcases retabled.mem_l1 member with rfl | ⟨_, before⟩
      · obtain ⟨source, known, listed⟩ := retabled.mem_words present listed
        exact sound.dataHosts source known entry listed plain
      · rw [retabled.content_old sound before] at listed
        exact sound.dataHosts other before entry listed plain
    · rcases retabled.mem_l1 member with rfl | ⟨_, before⟩
      · obtain ⟨source, known, listed⟩ := retabled.mem_words present listed
        exact sound.copied source known entry listed plain isCopied present
      · rw [retabled.content_old sound before] at listed
        exact sound.copied other before entry listed plain isCopied present
  have host : after.tableOf geometry guest = table * geometry.clusterSize := by
    rw [Image.tableOf, retabled.l1, getD_eq_getElem?_getD, getElem?_set_self inside]
    exact slotHost
  have here : TableAt geometry after guest table := by
    refine ⟨host, host.trans_ne nonzero, ?_, retabled.inFile⟩
    rw [retabled.l1]
    refine mem_pointers.mpr ⟨_, mem_set inside _, slotHost.trans_ne nonzero, ?_⟩
    rw [slotHost, mul_div_clusterSize]
  refine ⟨kept, ⟨here, ?_⟩, retabled.entryOf sound, fun position byte shown => ?_, retabled.size, retabled.backing⟩
  · have counted := retabled.count_l1 table
    have absent := count_eq_zero.mpr (retabled.fresh sound)
    have positive := count_pos_iff.mpr here.mem
    rw [count_singleton_self] at counted
    omega
  refine sound.view_entry supported ledger retabled.backing retabled.length (retabled.entryOf sound _)
    (fun cluster member => ?_) shown
  have inData := (sound.entryAt supported _).claimed cluster member
  exact ⟨sound.pinned_pos inData, retabled.content cluster (.inl (sound.pinned_pos inData))⟩

end

/-! ### Tables made for a write -/

open Library

variable {geometry : Geometry} {image : Image} {region : List Nat} {pinned tabled : Nat → Nat}

def Image.spare (image : Image) : Nat := image.store.spare

section

variable {α : Type} {program : StoreM α}

theorem lift_spends {cost : Nat} {post : α → Store → Prop} (known : Spends Store.spare cost program image.store post) :
    Spends Image.spare cost (liftM program : DiskM α) image fun value after =>
      ∃ store, after = { image with store } ∧ post value store :=
  Ensures.zoom (Ensures.mono known fun _ finish holds enough => ⟨(holds enough).1, finish, rfl, (holds enough).2⟩)

theorem lift_ensures {post : α → Store → Prop} (known : Ensures program image.store post) :
    Ensures (liftM program : DiskM α) image fun value after => ∃ store, after = { image with store } ∧ post value store :=
  Ensures.zoom (Ensures.mono known fun _ finish holds => ⟨finish, rfl, holds⟩)

theorem lift_bind {α β : Type} (program : StoreM α) (next : α → StoreM β) :
    (liftM (program >>= next) : DiskM β) = (liftM program >>= fun value => (liftM (next value) : DiskM β)) :=
  @zoom_bind DiskError Store Image α β Image.store (fun image store => { image with store }) (fun _ _ => rfl)
    (fun _ _ _ => rfl) program next

end

/-- The claims on L2 tables when an L1 entry goes from one table to another. -/
private def moved (geometry : Geometry) (tabled : Nat → Nat) (old : Entry) (table cluster : Nat) : Nat :=
  tabled cluster + [table].count cluster - (pointer geometry old).count cluster

variable {guest fuel : Nat} {old : Entry}

theorem pointer_count_le (sound : Sound geometry image region pinned tabled)
    (held : image.l1[guest / geometry.l2Entries]? = some old) (cluster : Nat) :
    (pointer geometry old).count cluster ≤ tabled cluster := by
  have replaced := @count_flatMap_set _ _ _ (pointer geometry) _ _ _ held 0 cluster
  have known := sound.tables cluster
  rw [pointer_of_hostOf_eq_zero hostOf_zero, List.count_nil] at replaced
  rw [pointers] at known
  omega

theorem Ledger.markHeader {store : Store} (ledger : Ledger geometry store region pinned tabled) :
    Ledger geometry { store with headerDirty := true } region pinned tabled :=
  have coherent := ledger.coherent
  ⟨⟨coherent.l2, coherent.blocks, coherent.allocated, coherent.hosts, coherent.distinct, coherent.apart⟩, ledger.counted,
    ledger.blocksApart, ledger.regionApart, ledger.tablesApart, ledger.keys, ledger.header, ledger.free⟩

theorem l2ForWrite_new (standard : geometry.Standard) (sound : Sound geometry image region pinned tabled)
    (held : image.l1[guest / geometry.l2Entries]? = some old) (absent : hostOf old = 0) :
    Spends Image.spare 1 (l2ForWrite geometry fuel (guest / geometry.l2Entries)) image fun host after =>
      ∃ table tabled', host = table * geometry.clusterSize ∧
        Prepared geometry image after region pinned tabled' guest table := by
  apply Spends.getThen
  rw [held]
  dsimp only
  rw [if_pos absent]
  refine .bindLast (lift_spends (newL2Table_spec standard sound.ledger fuel List.length_replicate)) ?_
  rintro _ _ ⟨store, rfl, table, rfl, fresh⟩
  have ledger := (fresh.ledger.retable fresh.unpinned sound.ledger.header).markHeader
  refine .of_kept (Ensures.modifyThen (Ensures.pure ⟨rfl, table, withClaims tabled [table], rfl, ?_⟩))
  refine @Retabled.prepared geometry _ _ _ _ guest table old _ _ standard.toSupported sound ?_ ledger
  exact { fresh with
    held := held
    l1 := rfl
    claims := fun cluster => by rw [pointer_of_hostOf_eq_zero absent]; rfl
    copy := fresh.fresh.trans (if_pos absent).symm
    nonzero := fresh.nonzero sound.ledger.header
    fits := fresh.fits sound.fits
    size := rfl
    backing := rfl }

variable {table : Nat}

theorem Unnoticed.prepared {mid after : Image} {tabled' : Nat → Nat}
    (unnoticed : Unnoticed geometry image mid region pinned tabled)
    (prepared : Prepared geometry mid after region pinned tabled' guest table) :
    Prepared geometry image after region pinned tabled' guest table := by
  obtain ⟨_, rest, view, entry, _⟩ := unnoticed
  refine ⟨prepared.sound, prepared.slot, fun other => (prepared.entry other).trans (entry other),
    fun position byte shown => prepared.view position byte ((view position).trans shown), ?_, ?_⟩
  · rw [prepared.size, rest]
  · rw [prepared.backing, rest]

theorem Sound.counts (supported : geometry.Supported) (sound : Sound geometry image region pinned tabled) {after : Store}
    (counted : Coherent.Counted geometry image.store after) :
    Unnoticed geometry image { image with store := after } region pinned tabled :=
  sound.unnoticed supported (sound.ledger.counts counted) counted.table counted.length
    fun cluster claimed => counted.content cluster (sound.ledger.not_isBlock claimed)

theorem TableAt.unnoticed {after : Image} (found : TableAt geometry image guest table)
    (unnoticed : Unnoticed geometry image after region pinned tabled)
    (length : image.store.file.length ≤ after.store.file.length) : TableAt geometry after guest table := by
  have l1 : after.l1 = image.l1 := by rw [unnoticed.rest]
  have host : after.tableOf geometry guest = image.tableOf geometry guest := by rw [Image.tableOf, Image.tableOf, l1]
  exact ⟨host.trans found.host, host.trans_ne found.nonzero, by rw [l1]; exact found.mem, found.inFile.trans length⟩

section

variable (supported : geometry.Supported) (sound : Sound geometry image region pinned tabled)
include supported sound

theorem getRefcount_unnoticed (cluster : Nat) :
    Ensures (liftM (getRefcount geometry cluster) : DiskM Nat) image fun rc after =>
      after.spare = image.spare ∧ rc = image.store.refcount geometry cluster ∧
        after.store.file.length = image.store.file.length ∧ Unnoticed geometry image after region pinned tabled := by
  refine (lift_ensures (Coherent.getRefcount_ends sound.ledger.coherent cluster).ensures).mono ?_
  rintro _ _ ⟨store, rfl, rfl, counted⟩
  exact ⟨Store.spare_congr counted.table, rfl, counted.length, sound.counts supported counted⟩

theorem readTable_unnoticed (member : table ∈ pointers geometry image.l1) :
    Ensures (liftM (readClusterViaCache geometry (table * geometry.clusterSize)) : DiskM (List UInt8)) image
      fun bytes after => after.spare = image.spare ∧ bytes = image.store.content geometry table ∧
        after.store.content geometry table = image.store.content geometry table ∧
        after.store.file.length = image.store.file.length ∧ Unnoticed geometry image after region pinned tabled := by
  have plain := (sound.plain_table member).1
  refine (lift_ensures (Coherent.readClusterViaCache_ends sound.ledger.coherent plain).ensures).mono ?_
  rintro _ _ ⟨store, rfl, rfl, loaded⟩
  exact ⟨Store.spare_congr loaded.table, rfl, loaded.content table plain, loaded.length,
    sound.loads supported member loaded⟩

end

variable (standard : geometry.Standard) (sound : Sound geometry image region pinned tabled)
include standard sound

theorem copyTable_spec (found : TableAt geometry image guest table) : Spends Image.spare 1 (do
        let newL2 ← newL2Table geometry fuel (image.store.content geometry table)
        decRefcount geometry fuel table
        modify fun image => image.setL1 (guest / geometry.l2Entries) (owned newL2)
        pure newL2 : DiskM Nat) image fun host after =>
      ∃ table tabled', host = table * geometry.clusterSize ∧
        Prepared geometry image after region pinned tabled' guest table := by
  obtain ⟨old, held, host, points⟩ := found.l1Entry
  refine .bindLast
    (lift_spends (newL2Table_spec standard sound.ledger fuel (sound.ledger.coherent.length_content table))) ?_
  rintro _ _ ⟨store, rfl, fresh, rfl, isFresh⟩
  have claims (cluster : Nat) : moved geometry tabled old fresh cluster + [table].count cluster =
      withClaims tabled [fresh] cluster := by
    have enough := pointer_count_le sound held cluster
    rw [points] at enough
    simp only [moved, withClaims, points]
    omega
  have ledger := (isFresh.ledger.retable isFresh.unpinned sound.ledger.header).congr (fun _ => rfl) claims
  apply Spends.of_kept
  refine .bind (lift_ensures (ledger.decTabled standard.toSupported)) ?_
  rintro _ _ ⟨last, rfl, dropped, adjusted⟩
  refine .modifyThen (Ensures.pure ⟨Store.spare_congr adjusted.table, fresh, moved geometry tabled old fresh, rfl, ?_⟩)
  have kept {cluster : Nat} (claimed : 0 < withClaims pinned [fresh] cluster ∨ 0 < tabled cluster) :
      last.content geometry cluster = store.content geometry cluster :=
    adjusted.content cluster (isFresh.ledger.not_isBlock claimed)
  refine @Retabled.prepared geometry _ _ _ _ guest fresh old _ _ standard.toSupported sound ?_ dropped
  exact { isFresh with
    length := isFresh.length.trans adjusted.length.ge
    content := fun cluster claimed => by
      refine (kept ?_).trans (isFresh.content cluster claimed)
      simp only [withClaims]
      omega
    held := held
    l1 := rfl
    claims := fun cluster => by
      rw [points]
      exact claims cluster
    copy := by
      refine (kept (.inl ?_)).trans (isFresh.fresh.trans ?_)
      · simp [withClaims_cons]
      rw [Store.tableContent, if_neg, host, mul_div_clusterSize]
      rw [host, ← found.host]
      exact found.nonzero
    inFile := isFresh.inFile.trans adjusted.length.ge
    nonzero := isFresh.nonzero sound.ledger.header
    fits := by
      show last.file.length ≤ _
      rw [adjusted.length]
      exact isFresh.fits sound.fits
    size := rfl
    backing := rfl }

theorem cowL2IfShared_spec (present : image.tableOf geometry guest ≠ 0) :
    Spends Image.spare 1 (cowL2IfShared geometry fuel (guest / geometry.l2Entries)) image fun host after =>
      ∃ table tabled', host = table * geometry.clusterSize ∧
        Prepared geometry image after region pinned tabled' guest table := by
  have supported := standard.toSupported
  obtain ⟨table, found⟩ : ∃ table, TableAt geometry image guest table := ⟨_, sound.tableAt present⟩
  have host : hostOf (image.l1.getD (guest / geometry.l2Entries) 0) = table * geometry.clusterSize := found.host
  have claimed := sound.tabled_pos found.mem
  apply Spends.getThen
  dsimp only
  rw [host, if_neg (host ▸ present), mul_div_clusterSize]
  refine .bindKept (getRefcount_unnoticed supported sound table) ?_
  rintro _ counted ⟨rfl, length, unnoticed⟩
  have here := found.unnoticed unnoticed length.ge
  refine .ite (fun few => ?_) fun shared => ?_
  · refine .of_kept (Ensures.pure ⟨rfl, table, tabled, rfl, unnoticed.sound, ⟨here, ?_⟩, unnoticed.entry,
      fun position byte shown => (unnoticed.view position).trans shown, ?_, ?_⟩)
    · have known := unnoticed.sound.tables table
      have positive := List.count_pos_iff.mpr here.mem
      have refcount := sound.ledger.refcount_eq (.inr claimed)
      omega
    · rw [unnoticed.rest]
    · rw [unnoticed.rest]
  refine .bindKept (readTable_unnoticed supported unnoticed.sound here.mem) ?_
  rintro _ loaded ⟨rfl, same, length', unnoticed'⟩
  rw [← same]
  refine (copyTable_spec standard unnoticed'.sound (here.unnoticed unnoticed' length'.ge)).mono ?_
  rintro _ after ⟨fresh, tabled', rfl, prepared⟩
  exact ⟨fresh, tabled', rfl, (unnoticed.trans unnoticed').prepared prepared⟩

theorem l2ForWrite_spec (guest fuel : Nat) :
    Spends Image.spare 1 (l2ForWrite geometry fuel (guest / geometry.l2Entries)) image fun host after =>
      ∃ table tabled', host = table * geometry.clusterSize ∧
        Prepared geometry image after region pinned tabled' guest table := by
  cases held : image.l1[guest / geometry.l2Entries]? with
  | none =>
    apply Spends.getThen
    rw [held]
    exact Ensures.throw
  | some old =>
    by_cases absent : hostOf old = 0
    · exact l2ForWrite_new standard sound held absent
    have present : image.tableOf geometry guest ≠ 0 := by
      rwa [Image.tableOf, List.getD_eq_getElem?_getD, held]
    apply Spends.getThen
    rw [held]
    dsimp only
    rw [if_neg absent]
    exact cowL2IfShared_spec standard sound present

end Vmlab.Disk.Qcow2
