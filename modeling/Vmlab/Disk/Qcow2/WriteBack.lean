import Vmlab.Disk.Qcow2.Refcount

/-!
# Cached tables and the file

Each cached table has a home in the file, and a table counts with its changes that have not been written yet.
-/

namespace Vmlab.Disk.Qcow2

open Library List

section

variable (geometry : Geometry)

structure Geometry.Supported : Prop where
  clusterBits_ge : 9 ≤ geometry.clusterBits
  clusterBits_le : geometry.clusterBits ≤ 21
  width : RefcountWidth geometry.refcountBits

/-- Images of the format, on a host whose files have fewer than 2^32 clusters. -/
structure Geometry.Standard : Prop extends geometry.Supported where
  limit : geometry.host.maxFileLen < 2 ^ 32 * geometry.clusterSize

theorem Geometry.clusterSize_pos : 0 < geometry.clusterSize := Nat.two_pow_pos _

end

namespace Geometry.Supported

variable {geometry : Geometry} (supported : geometry.Supported)
include supported

theorem dvd_clusterSize : 512 ∣ geometry.clusterSize := Nat.pow_dvd_pow 2 supported.clusterBits_ge

theorem clusterSize_le : geometry.clusterSize ≤ 2 ^ 21 := Nat.pow_le_pow_right (by decide) supported.clusterBits_le

theorem l2Entries_mul : 8 * geometry.l2Entries = geometry.clusterSize :=
  Nat.mul_div_cancel' ((by decide : 8 ∣ 512).trans supported.dvd_clusterSize)

theorem refblockEntries_mul : geometry.refblockEntries * geometry.refcountBits = geometry.clusterSize * 8 := by
  apply Nat.div_mul_cancel
  exact supported.width.dvd.trans (Nat.mul_dvd_mul ((by decide : 8 ∣ 512).trans supported.dvd_clusterSize) (Nat.dvd_refl 8))

theorem refblockEntries_pos : 0 < geometry.refblockEntries := by
  rcases Nat.eq_zero_or_pos geometry.refblockEntries with zero | positive
  · have product := supported.refblockEntries_mul
    have size := clusterSize_pos geometry
    rw [zero] at product
    omega
  · exact positive

theorem two_le_refblockEntries : 2 ≤ geometry.refblockEntries := by
  have product := supported.refblockEntries_mul
  have size := Nat.le_of_dvd geometry.clusterSize_pos supported.dvd_clusterSize
  have narrow := Nat.le_of_dvd (by decide) supported.width.dvd
  by_contra few
  have less := Nat.mul_le_mul (by omega : geometry.refblockEntries ≤ 1) narrow
  omega

end Geometry.Supported

namespace Geometry.Standard

variable {geometry : Geometry}

theorem hostOffset (standard : geometry.Standard) {cluster : Nat}
    (fits : cluster * geometry.clusterSize + geometry.clusterSize ≤ geometry.host.maxFileLen) :
    HostOffset (cluster * geometry.clusterSize) where
  aligned := standard.dvd_clusterSize.trans (Nat.dvd_mul_left ..)
  small := by
    have limit := standard.limit
    have size := standard.clusterSize_le
    omega

end Geometry.Standard

theorem aligned_apart {size left right : Nat} (leftAligned : size ∣ left) (rightAligned : size ∣ right)
    (differ : left ≠ right) : left + size ≤ right ∨ right + size ≤ left := by
  obtain ⟨low, rfl⟩ := leftAligned
  obtain ⟨high, rfl⟩ := rightAligned
  rcases Nat.lt_or_gt_of_ne fun same : low = high => differ (by rw [same]) with less | more
  · left
    calc size * low + size = size * (low + 1) := rfl
      _ ≤ size * high := Nat.mul_le_mul_left _ less
  right
  calc size * high + size = size * (high + 1) := rfl
    _ ≤ size * low := Nat.mul_le_mul_left _ more

variable {geometry : Geometry}

section

variable (store : Store)

theorem readFile_ends (offset count : Nat) :
    Ends (readFile offset count) store (fun bytes after => bytes = store.file.read offset count ∧
        (count = 0 ∨ offset + count ≤ store.file.length) ∧ store = after)
      fun _ after => store = after ∧ count ≠ 0 ∧ store.file.length < offset + count := by
  apply Ends.get
  cases found : store.file.readExactAt offset count with
  | none =>
    refine .throw ⟨rfl, ?_⟩
    simp only [File.readExactAt] at found
    split at found
    · cases found
    split at found
    · cases found
    · omega
  | some bytes =>
    obtain ⟨same, inside⟩ := File.readExactAt_eq_some.mp found
    exact .pure ⟨same, inside, rfl⟩

theorem writeFile_ends (offset : Nat) (data : List UInt8) :
    Ends (writeFile geometry offset data) store (fun _ after =>
        data = [] ∧ after = store ∨
        data ≠ [] ∧ offset + data.length ≤ geometry.host.maxFileLen ∧
          after = { store with file := store.file.patch offset data })
      fun _ _ => ¬(geometry.readOnly = false ∧ offset + data.length ≤ geometry.host.maxFileLen) := by
  refine .ite (fun readOnly => .throw fun may => ?_) fun _ => ?_
  · rw [may.1] at readOnly
    cases readOnly
  apply Ends.get
  cases written : store.file.writeAllAt geometry.host.maxFileLen offset data with
  | none =>
    refine .throw fun may => ?_
    simp only [File.writeAllAt] at written
    split at written
    · cases written
    · rw [if_neg (Nat.not_lt.mpr may.2)] at written
      cases written
  | some file =>
    apply Ends.modify
    rcases File.writeAllAt_eq_some.mp written with ⟨empty, same⟩ | ⟨some, fits, patched⟩
    · exact .inl ⟨empty, by rw [same]⟩
    · exact .inr ⟨some, fits, by rw [patched]⟩

end

section

variable (geometry : Geometry)

/-- The file can be written where it has bytes. -/
def Geometry.Writes (store : Store) : Prop :=
  geometry.readOnly = false ∧ store.file.length ≤ geometry.host.maxFileLen

structure CachedAt (file : File) (home : Nat) (table : List UInt8) (dirty : Bool) : Prop where
  length : table.length = geometry.clusterSize
  aligned : geometry.clusterSize ∣ home
  inFile : home + geometry.clusterSize ≤ file.length
  clean : dirty = false → table = file.read home geometry.clusterSize

structure Tables (home : Nat → Nat) (map : SortedMap Nat (List UInt8 × Bool)) (file : File) :
    Prop where
  cached : ∀ key table dirty, map.get? key = some (table, dirty) → CachedAt geometry file (home key) table dirty
  injective : ∀ key other, map.get? key ≠ none → map.get? other ≠ none → home other = home key → other = key

def currentTable (home : Nat → Nat) (map : SortedMap Nat (List UInt8 × Bool)) (file : File)
    (key : Nat) : List UInt8 :=
  match map.get? key with
  | some (table, _) => table
  | none => file.read (home key) geometry.clusterSize

end

variable {table : List UInt8}

theorem currentTable_of_some {home : Nat → Nat} {map : SortedMap Nat (List UInt8 × Bool)} {file : File} {key : Nat}
    {dirty : Bool} (found : map.get? key = some (table, dirty)) :
    currentTable geometry home map file key = table := by
  rw [currentTable, found]

theorem currentTable_of_none {home : Nat → Nat} {map : SortedMap Nat (List UInt8 × Bool)} {file : File} {key : Nat}
    (absent : map.get? key = none) :
    currentTable geometry home map file key = file.read (home key) geometry.clusterSize := by
  rw [currentTable, absent]

structure WrittenBack (geometry : Geometry) (home : Nat → Nat) (tables : List (Nat × List UInt8)) (file written : File) :
    Prop where
  length : written.length = file.length
  read : ∀ key table, (key, table) ∈ tables → written.read (home key) geometry.clusterSize = table
  other : ∀ position, (∀ key table, (key, table) ∈ tables →
    position < home key ∨ home key + geometry.clusterSize ≤ position) →
    written.byteAt position = file.byteAt position

variable {store : Store} {locate : Nat → StoreM Nat}

section

variable {home : Nat → Nat} {tables : List (Nat × List UInt8)} {file written : File}

section

variable (back : WrittenBack geometry home tables file written)
include back

theorem WrittenBack.read_other
    (homes : ∀ key table, (key, table) ∈ tables → geometry.clusterSize ∣ home key) {start : Nat}
    (aligned : geometry.clusterSize ∣ start) (differ : ∀ key table, (key, table) ∈ tables → home key ≠ start) :
    written.read start geometry.clusterSize = file.read start geometry.clusterSize := by
  apply File.read_congr
  intro index inside
  apply back.other
  intro key table member
  rcases aligned_apart (homes key table member) aligned (differ key table member) with before | after <;> omega

private theorem WrittenBack.concat {key : Nat}
    (homes : ∀ other earlier, (other, earlier) ∈ tables → geometry.clusterSize ∣ home other)
    (functional : ∀ other earlier, (other, earlier) ∈ tables → home other = home key → earlier = table)
    (length : table.length = geometry.clusterSize) (aligned : geometry.clusterSize ∣ home key)
    (inFile : home key + geometry.clusterSize ≤ file.length) :
    WrittenBack geometry home (tables ++ [(key, table)]) file (written.patch (home key) table) where
  length := by
    rw [File.length_patch, back.length, length]
    omega
  read other earlier member := by
    by_cases same : home other = home key
    · have equal : earlier = table := by
        rcases mem_append.mp member with before | last
        · exact functional other earlier before same
        · cases mem_singleton.mp last
          rfl
      rw [same, ← length, File.read_patch_self, equal]
    rcases mem_append.mp member with before | last
    · have apart := aligned_apart (homes other earlier before) aligned same
      rw [File.read_patch_of_disjoint (by omega)]
      exact back.read other earlier before
    · cases mem_singleton.mp last
      exact absurd rfl same
  other position outside := by
    have last := outside key table (by simp)
    rw [File.byteAt_patch_of_outside (by omega)]
    exact back.other position fun other earlier member => outside other earlier (by simp [member])

end

theorem writeTables_ends (home : Nat → Nat) (located : ∀ key table file, (key, table) ∈ tables →
      Ends (locate key) { store with file } (fun host after => host = home key ∧ after = { store with file })
        fun _ _ => False)
    (sized : ∀ key table, (key, table) ∈ tables → table.length = geometry.clusterSize ∧
      geometry.clusterSize ∣ home key ∧ home key + geometry.clusterSize ≤ store.file.length)
    (functional : ∀ key table other earlier, (key, table) ∈ tables → (other, earlier) ∈ tables →
      home other = home key → earlier = table) :
    Ends (writeTables geometry locate tables) store (fun _ after =>
        ∃ written, after = { store with file := written } ∧ WrittenBack geometry home tables store.file written)
      fun _ _ => ¬geometry.Writes store := by
  -- The tables already written are a first part of the list.
  apply @Ends.mono _ _ _ _ _ _ _ _ fun _ _ => ¬geometry.Writes store
  · apply Ends.forM fun remaining state =>
      ∃ done written, tables = done ++ remaining ∧ state = { store with file := written } ∧
        WrittenBack geometry home done store.file written
    · exact ⟨[], store.file, rfl, rfl, ⟨rfl, fun _ _ member => (nomatch member), fun _ _ => rfl⟩⟩
    rintro ⟨key, table⟩ remaining state ⟨done, written, split, rfl, back⟩
    have member : (key, table) ∈ tables := by simp [split]
    have earlier {other : Nat} {before : List UInt8} (inside : (other, before) ∈ done) : (other, before) ∈ tables := by
      simp [split, inside]
    obtain ⟨length, aligned, inFile⟩ := sized key table member
    refine .bind ((located key table written member).monoBad fun _ _ => False.elim) ?_
    rintro _ _ ⟨rfl, rfl⟩
    refine (writeFile_ends _ _ _).mono (fun _ after wrote => ?_) fun _ _ blocked may =>
      blocked ⟨may.1, length ▸ inFile.trans may.2⟩
    have nonempty : table ≠ [] := by
      rintro rfl
      have := Geometry.clusterSize_pos geometry
      simp at length
      omega
    rcases wrote with ⟨empty, _⟩ | ⟨_, _, rfl⟩
    · exact absurd empty nonempty
    refine ⟨done ++ [(key, table)], written.patch (home key) table, by simp [split], rfl, ?_⟩
    exact back.concat (fun other before inside => (sized other before (earlier inside)).2.1)
      (fun other before inside => functional key table other before member (earlier inside)) length aligned inFile
  · rintro _ after ⟨done, written, split, shape, back⟩
    rw [append_nil] at split
    subst split
    exact ⟨written, shape, back⟩
  · exact fun _ _ => id

end

namespace Tables

variable {home : Nat → Nat} {map after : SortedMap Nat (List UInt8 × Bool)} {file written : File}
  {tables : List (Nat × List UInt8)}

theorem congr_file (cached : Tables geometry home map file) (length : file.length ≤ written.length)
    (same : ∀ key, map.get? key ≠ none →
      written.read (home key) geometry.clusterSize = file.read (home key) geometry.clusterSize) :
    Tables geometry home map written where
  cached key table dirty found := by
    have at' := cached.cached key table dirty found
    exact ⟨at'.length, at'.aligned, at'.inFile.trans length, fun clean =>
      (at'.clean clean).trans (same key (by simp [found])).symm⟩
  injective := cached.injective

section

variable (cached : Tables geometry home map file) (settles : TableCache.Settles map after tables)
  (back : WrittenBack geometry home tables file written)

include cached settles

theorem sized (key : Nat) (table : List UInt8) (member : (key, table) ∈ tables) :
    table.length = geometry.clusterSize ∧ geometry.clusterSize ∣ home key ∧
      home key + geometry.clusterSize ≤ file.length :=
  have at' := cached.cached key table true (settles.listed key table member)
  ⟨at'.length, at'.aligned, at'.inFile⟩

theorem functional (key : Nat) (table : List UInt8) (other : Nat) (earlier : List UInt8)
    (member : (key, table) ∈ tables) (before : (other, earlier) ∈ tables) (same : home other = home key) :
    earlier = table := by
  have held := settles.listed key table member
  have heldBefore := settles.listed other earlier before
  have equal : other = key := cached.injective key other (by simp [held]) (by simp [heldBefore]) same
  rw [equal, held] at heldBefore
  cases heldBefore
  rfl

include back

theorem read_home {key : Nat} (aligned : geometry.clusterSize ∣ home key)
    (own : ∀ other, map.get? other ≠ none → home other = home key → other = key)
    (absent : ∀ table, (key, table) ∉ tables) :
    written.read (home key) geometry.clusterSize = file.read (home key) geometry.clusterSize := by
  apply back.read_other (fun other table member => (sized cached settles other table member).2.1) aligned
  intro other table member same
  have held := settles.listed other table member
  have equal := own other (by simp [held]) same
  subst equal
  exact absent table member

theorem settle : Tables geometry home after written where
  cached key table dirty found := by
    obtain ⟨wasDirty, held, listed⟩ := settles.held key table dirty found
    have at' := cached.cached key table wasDirty held
    refine ⟨at'.length, at'.aligned, back.length ▸ at'.inFile, fun clean => ?_⟩
    cases wasDirty with
    | true => exact (back.read key table (listed clean rfl)).symm
    | false =>
      rw [read_home cached settles back at'.aligned
        (fun other present => cached.injective key other (by simp [held]) present)]
      · exact at'.clean rfl
      intro other member
      have dirtyHeld := settles.listed key other member
      rw [held] at dirtyHeld
      cases dirtyHeld
  injective key other present otherPresent := by
    refine cached.injective key other ?_ ?_
    · cases found : after.get? key with
      | none => exact absurd found present
      | some entry =>
        obtain ⟨_, held, _⟩ := settles.held key entry.1 entry.2 found
        simp [held]
    cases found : after.get? other with
    | none => exact absurd found otherPresent
    | some entry =>
      obtain ⟨_, held, _⟩ := settles.held other entry.1 entry.2 found
      simp [held]

theorem currentTable_settle {key : Nat} (aligned : geometry.clusterSize ∣ home key)
    (own : ∀ other, map.get? other ≠ none → home other = home key → other = key) :
    currentTable geometry home after written key = currentTable geometry home map file key := by
  cases found : after.get? key with
  | some entry =>
    obtain ⟨_, held, _⟩ := settles.held key entry.1 entry.2 found
    rw [currentTable_of_some held, currentTable_of_some found]
  | none =>
    rw [currentTable_of_none found]
    cases held : map.get? key with
    | none =>
      rw [currentTable_of_none held, read_home cached settles back aligned own]
      intro table member
      rw [settles.listed key table member] at held
      cases held
    | some entry =>
      obtain ⟨table, wasDirty⟩ := entry
      rw [currentTable_of_some held]
      cases wasDirty with
      | true => exact back.read key table (settles.gone key table found held)
      | false =>
        rw [read_home cached settles back aligned own, (cached.cached key table false held).clean rfl]
        intro other member
        rw [settles.listed key other member] at held
        cases held

end

variable {loaded : TableCache} {key : Nat} {left : SortedMap Nat (List UInt8 × Bool)}

theorem load (cached : Tables geometry home left written) (aligned : geometry.clusterSize ∣ home key)
    (inFile : home key + geometry.clusterSize ≤ written.length)
    (own : ∀ other, left.get? other ≠ none → home other = home key → other = key)
    (found : ∀ other, loaded.find? other =
      if other = key then some (written.read (home key) geometry.clusterSize, false) else left.get? other) :
    Tables geometry home loaded.map written where
  cached other table dirty held := by
    have held : loaded.find? other = some (table, dirty) := held
    rw [found] at held
    split at held
    · next same =>
      subst same
      cases held
      exact ⟨File.length_read .., aligned, inFile, fun _ => rfl⟩
    · exact cached.cached other table dirty held
  injective first second present secondPresent same := by
    have present : loaded.find? first ≠ none := present
    have secondPresent : loaded.find? second ≠ none := secondPresent
    rw [found] at present secondPresent
    split at present
    · next isKey =>
      subst isKey
      split at secondPresent
      · next alsoKey => exact alsoKey
      · exact own second secondPresent same
    split at secondPresent
    · next isKey =>
      subst isKey
      exact (own first present same.symm).symm
    · exact cached.injective first second present secondPresent same

theorem currentTable_load (found : ∀ other, loaded.find? other =
      if other = key then some (written.read (home key) geometry.clusterSize, false) else left.get? other)
    (absent : left.get? key = none) (other : Nat) :
    currentTable geometry home loaded.map written other = currentTable geometry home left written other := by
  have held : loaded.map.get? other = _ := found other
  by_cases same : other = key
  · subst same
    rw [if_pos rfl] at held
    rw [currentTable_of_some held, currentTable_of_none absent]
  · rw [if_neg same] at held
    rw [currentTable, currentTable, held]

/-- A table that was not cached is loaded after others were written back to make room for it. -/
theorem settleLoad (cached : Tables geometry home map file) (settles : TableCache.Settles map left tables)
    (back : WrittenBack geometry home tables file written) (absent : map.get? key = none)
    (aligned : geometry.clusterSize ∣ home key) (inFile : home key + geometry.clusterSize ≤ file.length)
    (own : ∀ other, home other = home key → other = key) (found : ∀ other, loaded.find? other =
      if other = key then some (file.read (home key) geometry.clusterSize, false) else left.get? other) :
    Tables geometry home loaded.map written ∧ ∀ other,
      currentTable geometry home loaded.map written other = currentTable geometry home left written other := by
  have unlisted : ∀ table, (key, table) ∉ tables := by
    intro table member
    rw [settles.listed key table member] at absent
    cases absent
  rw [← read_home cached settles back aligned (fun other _ => own other) unlisted] at found
  exact ⟨(cached.settle settles back).load aligned (back.length ▸ inFile) (fun other _ => own other) found,
    currentTable_load found (settles.absent absent)⟩

end Tables

/-! ### The refcount table never gets shorter and its blocks never move -/

variable {geometry : Geometry}

def SameEntries (store after : Store) : Prop := after.refcountTable = store.refcountTable

instance : Std.Refl SameEntries := ⟨fun _ => rfl⟩

instance : IsTrans Store SameEntries := ⟨fun _ _ _ left right => right.trans left⟩

structure TableGrows (store after : Store) : Prop where
  length : store.refcountTable.length ≤ after.refcountTable.length
  blocks : ∀ tableIndex, store.blockHost tableIndex ≠ 0 → after.blockHost tableIndex = store.blockHost tableIndex

instance : Std.Refl TableGrows := ⟨fun _ => ⟨le_rfl, fun _ _ => rfl⟩⟩

instance : IsTrans Store TableGrows := ⟨fun _ _ _ left right =>
  ⟨left.length.trans right.length, fun tableIndex present => by
    have middle := left.blocks tableIndex present
    rw [right.blocks tableIndex (middle.trans_ne present), middle]⟩⟩

theorem SameEntries.grows {after : Store} (same : SameEntries store after) : TableGrows store after := by
  refine ⟨Nat.le_of_eq (congrArg List.length same).symm, fun tableIndex _ => ?_⟩
  rw [Store.blockHost, same, Store.blockHost]

theorem follows_grows {α : Type} {program : StoreM α} (same : Follows SameEntries program) :
    Follows TableGrows program := fun store => (same store).mono fun _ _ kept => kept.grows

theorem readFile_sameEntries (offset count : Nat) : Follows SameEntries (readFile offset count) := by
  intro store
  refine (readFile_ends store offset count).ensures.mono ?_
  rintro _ _ ⟨_, _, rfl⟩
  exact rfl

theorem writeFile_sameEntries (offset : Nat) (data : List UInt8) : Follows SameEntries (writeFile geometry offset data) := by
  intro store
  refine (writeFile_ends store offset data).ensures.mono fun _ after wrote => ?_
  rcases wrote with ⟨_, rfl⟩ | ⟨_, _, rfl⟩
  · exact rfl
  · exact rfl

theorem refblockHost_sameEntries (index : Nat) : Follows SameEntries (refblockHost index) := by
  refine .bind .get fun store => ?_
  exact .ite (.throw _) (.ite (.throw _) (.pure _))

theorem writeTables_sameEntries (located : ∀ key, Follows SameEntries (locate key))
    (tables : List (Nat × List UInt8)) : Follows SameEntries (writeTables geometry locate tables) :=
  .forM fun table => .bind (located table.1) fun _ => writeFile_sameEntries _ _

theorem loadRefblock_sameEntries (index : Nat) : Follows SameEntries (loadRefblock geometry index) := by
  refine .bind .get fun store => .ite (.modify fun _ => rfl) ?_
  refine .bind (refblockHost_sameEntries index) fun host => ?_
  refine .bind (readFile_sameEntries _ _) fun block => ?_
  exact .bind (.modify fun _ => rfl) fun _ => writeTables_sameEntries refblockHost_sameEntries _

theorem readRefblock_sameEntries (index : Nat) : Follows SameEntries (readRefblock geometry index) := by
  refine .bind (loadRefblock_sameEntries index) fun _ => .bind .get fun store => ?_
  cases store.refblockCache.find? index with
  | none => exact .throw _
  | some entry => exact .bind (.modify fun _ => rfl) fun _ => .pure _

theorem refblockSet_sameEntries (index entry value : Nat) :
    Follows SameEntries (refblockSet geometry index entry value) :=
  .bind (loadRefblock_sameEntries index) fun _ => .modify fun _ => rfl

theorem getRefcount_sameEntries (cluster : Nat) : Follows SameEntries (getRefcount geometry cluster) := by
  refine .bind .get fun store => .ite (.pure _) ?_
  exact .bind (readRefblock_sameEntries _) fun _ => .pure _

theorem scanCoverage_sameEntries (toEnd : Bool) (rounds : Nat) : Follows SameEntries (scanCoverage geometry toEnd rounds) := by
  induction rounds with
  | zero => exact .throw _
  | succ rounds ih =>
    refine .bind .get fun store => .ite (.ite ?_ ?_) (.pure _)
    · exact .bind (.modify fun _ => rfl) fun _ => ih
    refine .bind (readRefblock_sameEntries _) fun block => ?_
    refine .ite (.modify fun _ => rfl) ?_
    exact .bind (.modify fun _ => rfl) fun _ => .ite (.pure _) ih

theorem refillFreeMap_sameEntries (toEnd : Bool) : Follows SameEntries (refillFreeMap geometry toEnd) :=
  .bind .get fun _ => scanCoverage_sameEntries toEnd _

theorem takeMappedRun_sameEntries (count : Nat) : Follows SameEntries (takeMappedRun count) := by
  refine .bind .get fun store => ?_
  dsimp only
  cases findRun (max count 1) (store.free.set.entries.map Prod.fst) 0 0 with
  | none => exact .pure _
  | some first => exact .bind (.modify fun _ => rfl) fun _ => .pure _

theorem blockHost_extendTable (length : Nat) (store : Store) (tableIndex : Nat) :
    (store.extendTable length).blockHost tableIndex = store.blockHost tableIndex := by
  simp only [Store.blockHost, Store.extendTable, getD_eq_getElem?_getD, getElem?_append]
  split
  · rfl
  · next outside =>
    rw [getElem?_eq_none (Nat.not_lt.mp outside), getElem?_replicate]
    split <;> rfl

theorem extendTable_grows (length : Nat) (store : Store) : TableGrows store (store.extendTable length) :=
  ⟨by simp [Store.extendTable], fun tableIndex _ => blockHost_extendTable length store tableIndex⟩

theorem installRefblock_grows {tableIndex : Nat} (missing : store.blockHost tableIndex = 0)
    (hostIdx : Nat) : TableGrows store (store.installRefblock geometry tableIndex hostIdx) := by
  refine ⟨by simp [Store.installRefblock], fun other present => ?_⟩
  have differ : tableIndex ≠ other := fun same => present (same ▸ missing)
  simp [Store.blockHost, Store.installRefblock, getD_eq_getElem?_getD, getElem?_set_ne differ]

theorem decRefcountWith_grows {set : Nat → Nat → StoreM Unit} (sets : ∀ cluster value, Follows TableGrows (set cluster value))
    (cluster : Nat) : Follows TableGrows (decRefcountWith geometry set cluster) :=
  .bind (follows_grows (getRefcount_sameEntries cluster)) fun _ => .ite (.throw _) (sets _ _)

structure AllocatorGrows (geometry : Geometry) (fuel : Nat) : Prop where
  setClusterRefcount : ∀ cluster value, Follows TableGrows (setClusterRefcount geometry fuel cluster value)
  ensureRefcountTableLen : ∀ length, Follows TableGrows (ensureRefcountTableLen geometry fuel length)
  growRefcountTableRegion : ∀ clusters, Follows TableGrows (growRefcountTableRegion geometry fuel clusters)
  allocRefblock : ∀ index store, store.blockHost index = 0 →
    Ensures (allocRefblock geometry fuel index) store fun _ after => TableGrows store after
  allocClustersContiguous : ∀ count, Follows TableGrows (allocClustersContiguous geometry fuel count)
  findFree : ∀ count, Follows TableGrows (findFree geometry fuel count)
  growCoverage : Follows TableGrows (growCoverage geometry fuel)

theorem AllocatorGrows.allocMissing {fuel : Nat} (grows : AllocatorGrows geometry fuel) (index : Nat)
    (store : Store) : Ensures (if store.blockHost index = 0 then Qcow2.allocRefblock geometry fuel index else pure ())
      store fun _ after => TableGrows store after :=
  Ensures.ite (grows.allocRefblock index store) fun _ => .pure (refl_of TableGrows store)

theorem allocatorGrows (geometry : Geometry) (fuel : Nat) : AllocatorGrows geometry fuel := by
  induction fuel with
  | zero => exact ⟨fun _ _ => .throw _, fun _ => .throw _, fun _ => .throw _, fun _ _ _ => .throw,
      fun _ => .throw _, fun _ => .throw _, .throw _⟩
  | succ fuel ih =>
    have refill (toEnd : Bool) : Follows TableGrows (refillFreeMap geometry toEnd) :=
      follows_grows (refillFreeMap_sameEntries toEnd)
    have take (count : Nat) := follows_grows (takeMappedRun_sameEntries count)
    have write (offset : Nat) (data : List UInt8) : Follows TableGrows (writeFile geometry offset data) :=
      follows_grows (writeFile_sameEntries offset data)
    have keeps {change : Store → Store} (same : ∀ store, (change store).refcountTable = store.refcountTable) :
        Follows TableGrows (modify change : StoreM PUnit) := follows_grows (.modify same)
    constructor
    · intro cluster value store
      refine .bind (ih.ensureRefcountTableLen _ store) fun _ longer grown => ?_
      apply Ensures.getThen
      refine .bind (ih.allocMissing _ longer) fun _ covered more => ?_
      have rest : Follows TableGrows (do
          refblockSet geometry (cluster / geometry.refblockEntries) (cluster % geometry.refblockEntries) value
          modify fun store => store.noteFree cluster value : StoreM Unit) :=
        .bind (follows_grows (refblockSet_sameEntries _ _ _)) fun _ => keeps fun _ => rfl
      exact (rest covered).mono fun _ _ last => trans_of TableGrows grown (trans_of TableGrows more last)
    · intro length
      refine .bind .get fun store => .ite (.pure _) ?_
      refine .bind (.ite (ih.growRefcountTableRegion _) (.pure _)) fun _ => ?_
      exact .modify fun store => extendTable_grows _ store
    · intro clusters
      refine .bind .get fun old => .ite (.pure _) (.ite (.throw _) ?_)
      refine .bind (.modify fun store => ?_) fun _ => ?_
      · exact ⟨(extendTable_grows _ store).length, (extendTable_grows _ store).blocks⟩
      refine .bind (ih.allocClustersContiguous _) fun offset => .bind .get fun store => .ite (.throw _) ?_
      refine .bind (write _ _) fun _ => .bind (keeps fun _ => rfl) fun _ => ?_
      refine .bind (.forM fun index => ih.setClusterRefcount index 1) fun _ => ?_
      exact .forM fun index => decRefcountWith_grows ih.setClusterRefcount index
    · intro index store missing
      refine .bind (refillFreeMap_sameEntries false store) fun _ filled same => ?_
      refine .bind (takeMappedRun_sameEntries 1 filled) fun hole taken same' => ?_
      have entries : SameEntries store taken := trans_of SameEntries same same'
      have still : taken.blockHost index = 0 := by rwa [Store.blockHost, entries]
      apply Ensures.modifyThen
      have installed : TableGrows taken (taken.installRefblock geometry index
          (hole.getD (index * geometry.refblockEntries))) := installRefblock_grows still _
      have rest : Follows TableGrows (do
          writeFile geometry (hole.getD (index * geometry.refblockEntries) * geometry.clusterSize)
            (replicate geometry.clusterSize 0)
          setClusterRefcount geometry fuel (hole.getD (index * geometry.refblockEntries)) 1 : StoreM Unit) :=
        .bind (write _ _) fun _ => ih.setClusterRefcount _ _
      exact (rest _).mono fun _ _ last =>
        trans_of TableGrows entries.grows (trans_of TableGrows installed last)
    · intro count
      refine .bind (ih.findFree count) fun first => .bind (.forM fun index => ?_) fun _ => .pure _
      exact .bind (keeps fun _ => rfl) fun _ => ih.setClusterRefcount index 1
    · intro count
      refine .bind (refill _) fun _ => .bind (take _) fun found => ?_
      cases found with
      | some first => exact .pure _
      | none =>
        refine .bind (refill _) fun _ => .bind (take _) fun found => ?_
        cases found with
        | some first => exact .pure _
        | none => exact .bind ih.growCoverage fun _ => ih.findFree count
    · intro store
      apply Ensures.getThen
      cases first : store.refcountTable.findIdx? fun entry => hostOf entry = 0 with
      | some index =>
        refine ih.allocRefblock index store ?_
        obtain ⟨inside, zero, _⟩ := findIdx?_eq_some_iff_getElem.mp first
        rw [Store.blockHost, getD_eq_getElem?_getD, getElem?_eq_getElem inside]
        exact of_decide_eq_true zero
      | none =>
        refine .bind (ih.ensureRefcountTableLen _ store) fun _ longer grown => ?_
        apply Ensures.getThen
        exact (ih.allocMissing _ longer).mono fun _ _ more => trans_of TableGrows grown more

end Vmlab.Disk.Qcow2
