import Vmlab.Disk.Qcow2.GuestView

/-!
# Reading from a sound image

A read succeeds exactly when every byte of its range can be seen, and returns
these bytes. It may load and evict tables, which the guest does not notice.
-/

namespace Vmlab.Disk.Qcow2

open Library List

variable {geometry : Geometry} {image : Image} {region : List Nat} {pinned tabled : Nat → Nat}

variable {offset cluster table maxLen : Nat}

def Spells (view : Nat → Option UInt8) (offset : Nat) (bytes : List UInt8) : Prop :=
  ∀ index < bytes.length, view (offset + index) = bytes[index]?

theorem Spells.append {view : Nat → Option UInt8} {left right : List UInt8}
    (first : Spells view offset left) (second : Spells view (offset + left.length) right) :
    Spells view offset (left ++ right) := by
  intro index inside
  rw [length_append] at inside
  by_cases early : index < left.length
  · rw [getElem?_append_left early]
    exact first index early
  rw [getElem?_append_right (Nat.not_lt.mp early), ← second (index - left.length) (by omega)]
  congr 1
  omega

structure Unnoticed (geometry : Geometry) (image after : Image) (region : List Nat) (pinned tabled : Nat → Nat) : Prop where
  sound : Sound geometry after region pinned tabled
  rest : after = { image with store := after.store }
  view : ∀ position, after.view geometry position = image.view geometry position
  entry : ∀ guest, after.entryOf geometry guest = image.entryOf geometry guest
  table : after.store.refcountTable = image.store.refcountTable

theorem Unnoticed.refl (sound : Sound geometry image region pinned tabled) :
    Unnoticed geometry image image region pinned tabled := ⟨sound, rfl, fun _ => rfl, fun _ => rfl, rfl⟩

theorem Unnoticed.trans {first second third : Image} (left : Unnoticed geometry first second region pinned tabled)
    (right : Unnoticed geometry second third region pinned tabled) :
    Unnoticed geometry first third region pinned tabled where
  sound := right.sound
  rest := by
    rw [right.rest, left.rest]
  view position := (right.view position).trans (left.view position)
  entry guest := (right.entry guest).trans (left.entry guest)
  table := right.table.trans left.table

theorem Sound.unnoticed (supported : geometry.Supported) (sound : Sound geometry image region pinned tabled)
    {after : Store} (ledger : Ledger geometry after region pinned tabled)
    (table : after.refcountTable = image.store.refcountTable) (length : after.file.length = image.store.file.length)
    (content : ∀ cluster, 0 < pinned cluster ∨ 0 < tabled cluster →
      after.content geometry cluster = image.store.content geometry cluster) :
    Unnoticed geometry image { image with store := after } region pinned tabled := by
  have tables (other : Nat) (member : other ∈ pointers geometry image.l1) :
      after.content geometry other = image.store.content geometry other :=
    content other (.inr (sound.tabled_pos member))
  obtain ⟨kept, clusters, entries⟩ := sound.sameTables ledger length.ge (length ▸ sound.fits) tables
  refine ⟨kept, rfl, fun position => Option.ext fun byte => ⟨fun shown => ?_, fun shown => ?_⟩, entries, table⟩
  · refine kept.view_kept supported sound.ledger rfl rfl length.le (fun other member => (tables other member).symm) ?_ shown
    intro cluster member
    rw [clusters] at member
    exact ⟨sound.pinned_pos member, (content cluster (.inl (sound.pinned_pos member))).symm⟩
  have sameL1 : ({ image with store := after } : Image).l1 = image.l1 := rfl
  refine sound.view_kept supported ledger sameL1 rfl length.ge tables ?_ shown
  exact fun cluster member => ⟨sound.pinned_pos member, content cluster (.inl (sound.pinned_pos member))⟩

theorem Sound.plain_table (sound : Sound geometry image region pinned tabled)
    (member : table ∈ pointers geometry image.l1) :
    ¬image.store.IsBlock geometry table ∧ table ∉ region ∧ pinned table = 0 := by
  have positive := sound.tabled_pos member
  refine ⟨sound.ledger.not_isBlock (.inr positive), fun inside => ?_, sound.ledger.tablesApart table positive⟩
  have := (sound.ledger.regionApart table inside).2
  omega

theorem Sound.loads (supported : geometry.Supported) (sound : Sound geometry image region pinned tabled)
    (member : table ∈ pointers geometry image.l1) {after : Store}
    (loaded : Coherent.LoadedL2 geometry image.store after table) :
    Unnoticed geometry image { image with store := after } region pinned tabled := by
  obtain ⟨_, outside, unpinned⟩ := sound.plain_table member
  exact sound.unnoticed supported (sound.ledger.loadsL2 loaded outside unpinned) loaded.table loaded.length
    fun cluster claimed => loaded.content cluster (sound.ledger.not_isBlock claimed)

theorem div_mod_add {position step size : Nat} (within : position % size + step < size) :
    (position + step) / size = position / size ∧ (position + step) % size = position % size + step := by
  have small : step < size := by omega
  have whole := Nat.div_add_mod' position size
  constructor
  · apply Nat.div_eq_of_lt_le
    · omega
    · rw [Nat.add_mul]
      omega
  · rw [Nat.add_mod, Nat.mod_eq_of_lt small, Nat.mod_eq_of_lt within]

theorem extendExtent_spec {source : ReadSource} {offset maxLen guest length : Nat} {words : List Entry}
    (listed : ∀ index entry, words[index]? = some entry → image.entryOf geometry (guest + index) = entry)
    (short : length ≤ maxLen) (here : length = maxLen ∨ offset + length = guest * geometry.clusterSize)
    (known : ∀ index < length, image.sourceAt geometry (offset + index) = source.shift index) :
    length ≤ extendExtent geometry source maxLen words length ∧
      extendExtent geometry source maxLen words length ≤ maxLen ∧
      ∀ index < extendExtent geometry source maxLen words length,
        image.sourceAt geometry (offset + index) = source.shift index := by
  induction words generalizing guest length with
  | nil => exact ⟨le_rfl, short, known⟩
  | cons entry words ih =>
    unfold extendExtent
    split
    · exact ⟨le_rfl, short, known⟩
    rename_i more
    split
    · next continues =>
      have starts := here.resolve_left more
      have mapped : image.entryOf geometry guest = entry := listed 0 entry rfl
      have next := ReadSource.shift_of_adjacent continues
      have size := geometry.clusterSize_pos
      have rest := @ih (guest + 1) (length + min (maxLen - length) geometry.clusterSize)
        (fun index other found => by
          rw [Nat.add_assoc, Nat.add_comm 1 index]
          exact listed (index + 1) other found)
        (by omega)
        (by
          rw [Nat.add_mul]
          omega)
        (fun index inside => by
          by_cases early : index < length
          · exact known index early
          have position : offset + index = guest * geometry.clusterSize + (index - length) := by omega
          have small : index - length < geometry.clusterSize := by omega
          rw [Image.sourceAt, position, Nat.mul_comm, Nat.mul_add_div size, Nat.div_eq_of_lt small,
            Nat.add_zero, mapped, Nat.mul_add_mod, Nat.mod_eq_of_lt small, ← Nat.zero_add (index - length),
            ReadSource.fromEntry_add, next, ReadSource.shift_shift]
          congr 1
          omega)
      exact ⟨by omega, rest.2⟩
    · exact ⟨le_rfl, short, known⟩

structure Extent (geometry : Geometry) (image : Image) (offset maxLen : Nat) (source : ReadSource) (length : Nat) :
    Prop where
  positive : 0 < length
  short : length ≤ maxLen
  sources : ∀ index < length, image.sourceAt geometry (offset + index) = source.shift index
  compressed : source.isCompressed = true → offset % geometry.clusterSize + length ≤ geometry.clusterSize

section

variable (supported : geometry.Supported)
include supported

theorem extent_unmapped (wanted : 0 < maxLen) (absent : image.tableOf geometry (offset / geometry.clusterSize) = 0) :
    Extent geometry image offset maxLen .backing (min maxLen (geometry.l2Span - offset % geometry.l2Span)) := by
  have size := geometry.clusterSize_pos
  have span : 0 < geometry.l2Span := Nat.mul_pos supported.l2Entries_pos size
  have inside := Nat.mod_lt offset span
  refine ⟨by omega, Nat.min_le_left .., fun index early => ?_, fun isCompressed => by cases isCompressed⟩
  have sameTable : (offset + index) / geometry.clusterSize / geometry.l2Entries =
      offset / geometry.clusterSize / geometry.l2Entries := by
    rw [Nat.div_div_eq_div_mul, Nat.div_div_eq_div_mul, Nat.mul_comm geometry.clusterSize]
    exact (div_mod_add (by rw [← Geometry.l2Span]; omega)).1
  have entry : image.entryOf geometry ((offset + index) / geometry.clusterSize) = 0 := by
    rw [Image.entryOf, Image.tableOf, sameTable]
    exact if_pos absent
  rw [Image.sourceAt, entry]
  rfl

theorem extent_mapped (coherent : Coherent geometry image.store)
    (wanted : 0 < maxLen) (found : TableAt geometry image (offset / geometry.clusterSize) table) :
    let source := image.sourceAt geometry offset
    let length := min maxLen (geometry.clusterSize - offset % geometry.clusterSize)
    Extent geometry image offset maxLen source (if source.isCompressed then length
      else extendExtent geometry source maxLen
        ((bytesToWords (image.store.content geometry table)).drop (geometry.l2IndexOf offset + 1)) length) := by
  intro source length
  have size := geometry.clusterSize_pos
  have inside := Nat.mod_lt offset size
  have whole := Nat.div_add_mod offset geometry.clusterSize
  have positive : 0 < length := by omega
  have first (index : Nat) (early : index < length) :
      image.sourceAt geometry (offset + index) = source.shift index := by
    obtain ⟨cluster, remainder⟩ := div_mod_add (by omega : offset % geometry.clusterSize + index < geometry.clusterSize)
    show ReadSource.fromEntry _ _ = ReadSource.shift (.fromEntry _ _) _
    rw [cluster, remainder, ReadSource.fromEntry_add]
  split
  · exact ⟨positive, Nat.min_le_left .., first, fun _ => by omega⟩
  rename_i plain
  have entries : (image.store.content geometry table).length / 8 = geometry.l2Entries := by
    rw [coherent.length_content, ← supported.l2Entries_mul]
    omega
  have listed (index : Nat) (entry : Entry)
      (next : ((bytesToWords (image.store.content geometry table)).drop (geometry.l2IndexOf offset + 1))[index]? =
        some entry) :
      image.entryOf geometry (offset / geometry.clusterSize + 1 + index) = entry := by
    rw [getElem?_drop, getElem?_bytesToWords, entries] at next
    split at next
    · next within =>
      cases next
      rw [Geometry.l2IndexOf_eq] at within ⊢
      obtain ⟨quotient, remainder⟩ := div_mod_add (by omega :
        offset / geometry.clusterSize % geometry.l2Entries + (1 + index) < geometry.l2Entries)
      rw [← Nat.add_assoc] at quotient remainder
      have sameTable : TableAt geometry image (offset / geometry.clusterSize + 1 + index) table := by
        have sameHost : image.tableOf geometry (offset / geometry.clusterSize + 1 + index) =
            image.tableOf geometry (offset / geometry.clusterSize) := by
          rw [Image.tableOf, quotient]
          rfl
        exact ⟨sameHost.trans found.host, sameHost.trans_ne found.nonzero, found.mem, found.inFile⟩
      rw [sameTable.entryOf, remainder, Nat.add_assoc]
    · cases next
  obtain ⟨atLeast, atMost, known⟩ := @extendExtent_spec geometry image source offset maxLen
    (offset / geometry.clusterSize + 1) length _ listed
    (Nat.min_le_left ..) (by rw [Nat.add_mul]; rw [Nat.mul_comm] at whole; omega) first
  exact ⟨by omega, atMost, known, fun isCompressed => absurd isCompressed plain⟩

theorem readExtent_ends (writable : geometry.readOnly = false)
    (sound : Sound geometry image region pinned tabled) (wanted : 0 < maxLen) :
    Ends (readExtent geometry offset maxLen) image
      (fun extent after => Unnoticed geometry image after region pinned tabled ∧
        Extent geometry image offset maxLen extent.1 extent.2) fun _ _ => False := by
  apply Ends.get
  have host : hostOf (image.l1.getD (geometry.l1IndexOf offset) 0) = image.tableOf geometry (offset / geometry.clusterSize) := by
    rw [supported.l1IndexOf_eq]
    rfl
  rw [host]
  refine .ite (fun absent => ?_) fun present => ?_
  · exact .pure ⟨.refl sound, extent_unmapped supported wanted absent⟩
  have found := sound.tableAt present
  generalize image.tableOf geometry (offset / geometry.clusterSize) / geometry.clusterSize = table at found
  rw [found.host]
  refine @Ends.bind _ _ _ _ _ _ _ _ _ (fun bytes after => bytes = image.store.content geometry table ∧
    Unnoticed geometry image after region pinned tabled) (Ends.zoom ?_) ?_
  · refine (Coherent.readClusterViaCache_ends sound.ledger.coherent (sound.plain_table found.mem).1).mono ?_
      fun _ _ blocked => blocked ⟨⟨writable, sound.fits⟩, found.inFile⟩
    rintro _ after ⟨rfl, loaded⟩
    exact ⟨rfl, sound.loads supported found.mem loaded⟩
  rintro _ after ⟨rfl, unnoticed⟩
  have extent := extent_mapped supported sound.ledger.coherent wanted found
  have source : ReadSource.fromEntry (wordAt (image.store.content geometry table) (geometry.l2IndexOf offset))
      (offset % geometry.clusterSize) = image.sourceAt geometry offset := by
    rw [Image.sourceAt, found.entryOf, Geometry.l2IndexOf_eq]
  dsimp only at extent ⊢
  rw [source]
  refine .ite (fun isCompressed => ?_) fun plain => ?_
  · rw [if_pos isCompressed] at extent
    exact .pure ⟨unnoticed, extent⟩
  · rw [if_neg plain] at extent
    exact .pure ⟨unnoticed, extent⟩

end

def Image.BackingBytewise (image : Image) : Prop := ∀ backing, image.backingImage = some backing → backing.Bytewise

theorem readUnallocated_ends (bytewise : image.BackingBytewise) (offset count : Nat) :
    Ends (readUnallocated offset count) image
      (fun bytes after => image = after ∧ bytes.length = count ∧ Spells image.backingByte offset bytes)
      fun _ _ => ∃ index < count, image.backingByte (offset + index) = none := by
  apply Ends.get
  cases held : image.backingImage with
  | none =>
    refine .pure ⟨rfl, length_replicate, fun index inside => ?_⟩
    rw [Image.backingByte, held, getElem?_eq_getElem inside, getElem_replicate]
  | some backing =>
    have byte (position : Nat) : image.backingByte position = backing.byteAt position := by
      rw [Image.backingByte, held]
    have past (position : Nat) (outside : backing.size ≤ position) : image.backingByte position = some 0 := by
      rw [byte, BackingImage.byteAt, if_pos outside]
    refine .ite (fun outside => ?_) fun inside => ?_
    · refine .pure ⟨rfl, length_replicate, fun index early => ?_⟩
      rw [past _ (by omega), getElem?_eq_getElem early, getElem_replicate]
    have range : offset + min count (backing.size - offset) ≤ backing.size := by omega
    dsimp only
    cases read : backing.readAt offset (min count (backing.size - offset)) with
    | error error =>
      obtain ⟨index, early, unreadable⟩ := (bytewise backing held).fails _ _ _ range read
      refine .bind (Ends.throw ⟨index, by omega, ?_⟩) fun _ _ absurd => absurd
      rw [byte, unreadable]
    | ok bytes =>
      obtain ⟨length, known⟩ := (bytewise backing held).reads _ _ _ range read
      apply Ends.pure
      refine ⟨rfl, by simp only [length_append, length_replicate]; omega, ?_⟩
      refine Spells.append (fun index early => ?_) fun index early => ?_
      · rw [byte, known index (by omega)]
      · rw [length_replicate] at early
        rw [past _ (by omega), getElem?_replicate, if_pos early]

theorem readCompressedCluster_ends (store : Store) (entry : Entry) : Ends (readCompressedCluster geometry entry) store
      (fun bytes after => store = after ∧ store.inflated geometry entry = some bytes ∧ bytes.length = geometry.clusterSize)
      fun _ _ => store.inflated geometry entry = none := by
  rw [readCompressedCluster_eq]
  refine .bind ((readFile_ends store _ _).monoBad fun _ _ failed => ?_) ?_
  · rw [Store.inflated, File.readExactAt, if_neg failed.2.1, if_neg (Nat.not_le.mpr failed.2.2)]
    rfl
  rintro _ _ ⟨rfl, inside, rfl⟩
  have read := File.readExactAt_eq_some.mpr ⟨rfl, inside⟩
  cases inflates : geometry.host.inflate (store.file.read (compressedExtent geometry entry).1
      (compressedEnd geometry entry - (compressedExtent geometry entry).1)) geometry.clusterSize with
  | none =>
    refine .throw ?_
    rw [Store.inflated, read, Option.bind_some, inflates]
    rfl
  | some bytes =>
    refine .pure ⟨rfl, ?_, ?_⟩
    · rw [Store.inflated, read, Option.bind_some, inflates]
      rfl
    · simp only [length_append, length_take, length_replicate]
      omega

theorem readFrom_ends (bytewise : image.BackingBytewise) {length : Nat} {source : ReadSource}
    (extent : Extent geometry image offset maxLen source length) : Ends (readFrom geometry source offset length) image
      (fun bytes after => image = after ∧ bytes.length = length ∧ Spells (image.view geometry) offset bytes)
      fun _ _ => ∃ index < length, image.view geometry (offset + index) = none := by
  have view (index : Nat) (early : index < length) : image.view geometry (offset + index) =
      image.sourceByte geometry (source.shift index) (offset + index) := by
    rw [Image.view, extent.sources index early]
  cases source with
  | backing =>
    refine (readUnallocated_ends bytewise offset length).mono ?_ ?_
    · rintro bytes _ ⟨rfl, size, spells⟩
      exact ⟨rfl, size, fun index early => (view index (size ▸ early)).trans (spells index early)⟩
    · rintro _ _ ⟨index, early, unreadable⟩
      exact ⟨index, early, (view index early).trans unreadable⟩
  | zero =>
    refine .pure ⟨rfl, length_replicate, fun index early => ?_⟩
    rw [length_replicate] at early
    rw [view index early, getElem?_replicate, if_pos early]
    rfl
  | file host =>
    refine .zoom ((readFile_ends image.store host length).mono ?_ ?_)
    · rintro _ _ ⟨rfl, inside, rfl⟩
      refine ⟨rfl, File.length_read .., fun index early => ?_⟩
      rw [File.length_read] at early
      rw [view index early, File.getElem?_read, if_pos early]
      exact if_pos (by omega)
    rintro _ _ ⟨_, _, outside⟩
    have positive := extent.positive
    refine ⟨length - 1, by omega, ?_⟩
    rw [view _ (by omega)]
    exact if_neg (by omega)
  | compressed entry =>
    have within := extent.compressed rfl
    have positive := extent.positive
    refine @Ends.bind _ _ _ _ _ _ _ _ _ (fun bytes after => image = after ∧
      image.store.inflated geometry entry = some bytes ∧ bytes.length = geometry.clusterSize) (Ends.zoom ?_) ?_
    · refine (readCompressedCluster_ends image.store entry).mono ?_ fun _ _ broken => ?_
      · rintro bytes _ ⟨rfl, inflated, size⟩
        exact ⟨rfl, inflated, size⟩
      refine ⟨0, positive, ?_⟩
      rw [view 0 positive]
      show (image.store.inflated geometry entry).bind _ = none
      rw [broken]
      rfl
    rintro bytes _ ⟨rfl, inflated, size⟩
    have sized : (window bytes (offset % geometry.clusterSize) length).length = length := length_window (by omega)
    refine .pure ⟨rfl, sized, fun index early => ?_⟩
    rw [sized] at early
    obtain ⟨_, remainder⟩ := div_mod_add (by omega : offset % geometry.clusterSize + index < geometry.clusterSize)
    rw [view index early]
    show (image.store.inflated geometry entry).bind _ = _
    rw [inflated, Option.bind_some, remainder, window, getElem?_take, if_pos early, getElem?_drop]

variable (supported : geometry.Supported) (writable : geometry.readOnly = false) (bytewise : image.BackingBytewise)
  (sound : Sound geometry image region pinned tabled)
include supported writable bytewise sound

theorem readExtents_ends {rounds count : Nat} (enough : count ≤ rounds) (inRange : offset + count < 2 ^ 64) :
    Ends (readExtents geometry rounds offset count) image
      (fun bytes after => Unnoticed geometry image after region pinned tabled ∧ bytes.length = count ∧
        Spells (image.view geometry) offset bytes)
      fun _ _ => ∃ index < count, image.view geometry (offset + index) = none := by
  induction rounds generalizing image offset count with
  | zero =>
    cases Nat.le_zero.mp enough
    exact .pure ⟨.refl sound, rfl, fun index inside => (nomatch inside)⟩
  | succ rounds ih =>
    refine .ite (fun done => ?_) fun more => ?_
    · subst done
      exact .pure ⟨.refl sound, rfl, fun index inside => (nomatch inside)⟩
    refine .bind ((readExtent_ends supported writable sound (Nat.pos_of_ne_zero more)).monoBad
      fun _ _ absurd => absurd.elim) ?_
    rintro ⟨source, length⟩ loaded ⟨unnoticed, extent⟩
    have positive := extent.positive
    have short := extent.short
    have moved : Extent geometry loaded offset count source length := by
      refine ⟨positive, short, fun index early => ?_, extent.compressed⟩
      rw [Image.sourceAt, unnoticed.entry]
      exact extent.sources index early
    have sameBacking : loaded.BackingBytewise := by
      rw [unnoticed.rest]
      exact bytewise
    refine .bind ((readFrom_ends sameBacking moved).monoBad ?_) ?_
    · rintro _ _ ⟨index, early, unreadable⟩
      exact ⟨index, by omega, (unnoticed.view _).symm.trans unreadable⟩
    rintro bytes _ ⟨rfl, size, spells⟩
    have next : wrap (offset + length) = offset + length := Nat.mod_eq_of_lt (by omega)
    rw [next]
    refine .bind ((ih sameBacking unnoticed.sound (by omega) (by omega)).monoBad ?_) ?_
    · rintro _ _ ⟨index, early, unreadable⟩
      refine ⟨length + index, by omega, ?_⟩
      rw [← Nat.add_assoc, ← unnoticed.view, unreadable]
    rintro rest after ⟨unnoticed', size', spells'⟩
    refine .pure ⟨unnoticed.trans unnoticed', by rw [length_append]; omega, ?_⟩
    refine Spells.append (fun index early => ?_) fun index early => ?_
    · rw [← unnoticed.view, spells index early]
    · rw [← unnoticed.view, size, spells' index early]

theorem readAt_ends {count : Nat} (inside : offset + count ≤ image.size) (small : image.size < 2 ^ 64) :
    Ends (readAt geometry offset count) image
      (fun bytes after => Unnoticed geometry image after region pinned tabled ∧ bytes.length = count ∧
        Spells (image.view geometry) offset bytes)
      fun _ _ => ∃ index < count, image.view geometry (offset + index) = none := by
  refine .ite (fun overflows => absurd overflows (by omega)) fun _ => ?_
  apply Ends.get
  refine .ite (fun beyond => absurd beyond (by omega)) fun _ => ?_
  exact readExtents_ends supported writable bytewise sound le_rfl (by omega)

end Vmlab.Disk.Qcow2
