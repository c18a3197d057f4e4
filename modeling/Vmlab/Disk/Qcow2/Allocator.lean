import Vmlab.Disk.Qcow2.Ledger

/-!
# Allocating clusters

A new refcount block changes no refcount but the one of its own cluster. Everything here is about runs in which the
refcount table has room for the blocks it gets: an allocation needs at most one.
-/

namespace Vmlab.Disk.Qcow2

open Library List
open Ensures (modifyThen getThen)

variable {geometry : Geometry} {cluster : Nat} {after : Store}

section

variable {store : Store} {region : List Nat} {pinned tabled : Nat → Nat} {tableIndex hostIdx : Nat}

def Store.withBlock (geometry : Geometry) (store : Store) (tableIndex hostIdx : Nat) : Store :=
  { store.installRefblock geometry tableIndex hostIdx with
    file := store.file.patch (hostIdx * geometry.clusterSize) (List.replicate geometry.clusterSize 0) }

structure Vacant (geometry : Geometry) (store : Store) (tableIndex hostIdx : Nat) : Prop where
  inside : tableIndex < store.refcountTable.length
  missing : store.blockHost tableIndex = 0
  unused : store.refcount geometry hostIdx = 0
  nonzero : hostIdx ≠ 0
  host : HostOffset (hostIdx * geometry.clusterSize)
  room : hostIdx * geometry.clusterSize + geometry.clusterSize ≤ geometry.host.maxFileLen

theorem Vacant.home_ne_zero (vacant : Vacant geometry store tableIndex hostIdx) : hostIdx * geometry.clusterSize ≠ 0 :=
  Nat.mul_ne_zero vacant.nonzero geometry.clusterSize_pos.ne'

theorem Vacant.blockHost (vacant : Vacant geometry store tableIndex hostIdx) (index : Nat) :
    (store.withBlock geometry tableIndex hostIdx).blockHost index =
      if index = tableIndex then hostIdx * geometry.clusterSize else store.blockHost index := by
  show hostOf ((store.refcountTable.set tableIndex _).getD index 0) = _
  rw [getD_eq_getElem?_getD]
  split
  · next same =>
    rw [same, getElem?_set_self vacant.inside]
    exact hostOf_ofNat vacant.host
  · next differ =>
    rw [getElem?_set_ne (Ne.symm differ), ← getD_eq_getElem?_getD]
    rfl

theorem read_withBlock {start : Nat}
    (aligned : geometry.clusterSize ∣ start) (differ : start ≠ hostIdx * geometry.clusterSize) :
    (store.withBlock geometry tableIndex hostIdx).file.read start geometry.clusterSize =
      store.file.read start geometry.clusterSize := by
  apply File.read_patch_of_disjoint
  rw [length_replicate]
  exact aligned_apart aligned (Nat.dvd_mul_left ..) differ

section

variable (ledger : Ledger geometry store region pinned tabled) (vacant : Vacant geometry store tableIndex hostIdx)
include ledger vacant

theorem Vacant.not_isBlock (index : Nat) (present : store.blockHost index ≠ 0) :
    store.blockHost index ≠ hostIdx * geometry.clusterSize :=
  fun same => (ledger.unclaimed vacant.unused).1 ⟨index, present, same⟩

theorem Vacant.coherent : Coherent geometry (store.withBlock geometry tableIndex hostIdx) := by
  have before := ledger.coherent
  have apart := vacant.not_isBlock ledger
  have length : store.file.length ≤ (store.withBlock geometry tableIndex hostIdx).file.length := Nat.le_max_left ..
  have present (index : Nat) (held : store.refblockCache.find? index ≠ none) : index ≠ tableIndex := fun same =>
    before.allocated index held (same ▸ vacant.missing)
  have cached {key : Nat} {table : List UInt8} {dirty : Bool}
      (held : (store.l2Cache.remove (hostIdx * geometry.clusterSize)).find? key = some (table, dirty)) :
      key ≠ hostIdx * geometry.clusterSize ∧ store.l2Cache.find? key = some (table, dirty) := by
    rw [TableCache.find?_remove] at held
    split at held
    · cases held
    · next differ => exact ⟨differ, held⟩
  have isCached {key : Nat} (held : (store.l2Cache.remove (hostIdx * geometry.clusterSize)).find? key ≠ none) :
      key ≠ hostIdx * geometry.clusterSize ∧ store.l2Cache.find? key ≠ none := by
    rw [TableCache.find?_remove] at held
    split at held
    · exact absurd rfl held
    · next differ => exact ⟨differ, held⟩
  have l2 : Tables geometry id (store.l2Cache.remove (hostIdx * geometry.clusterSize)).map store.file :=
    ⟨fun key table dirty held => before.l2.cached key table dirty (cached held).2,
      fun key other held heldOther same => before.l2.injective key other (isCached held).2 (isCached heldOther).2 same⟩
  refine ⟨l2.congr_file length fun key held => ?_, ⟨fun index block dirty held => ?_, fun left right leftHeld rightHeld same => ?_⟩,
    fun index held => ?_, fun index held => ?_, fun left right leftHeld same => ?_, fun host index held heldBlock => ?_⟩
  · obtain ⟨differ, there⟩ := isCached held
    obtain ⟨entry, found⟩ := Option.ne_none_iff_exists'.mp there
    exact read_withBlock (before.l2.cached key entry.1 entry.2 found).aligned differ
  · have at' := before.blocks.cached index block dirty held
    have home : (store.withBlock geometry tableIndex hostIdx).blockHost index = store.blockHost index := by
      rw [vacant.blockHost, if_neg (present index (by rw [TableCache.find?]; exact held ▸ Option.some_ne_none _))]
    rw [home]
    refine ⟨at'.length, at'.aligned, at'.inFile.trans length, fun clean => ?_⟩
    rw [read_withBlock at'.aligned (apart index (before.allocated index (by
      rw [TableCache.find?]; exact held ▸ Option.some_ne_none _)))]
    exact at'.clean clean
  · rw [vacant.blockHost, vacant.blockHost, if_neg (present left leftHeld), if_neg (present right rightHeld)] at same
    exact before.blocks.injective left right leftHeld rightHeld same
  · rw [vacant.blockHost]
    split
    · exact vacant.home_ne_zero
    · exact before.allocated index held
  · rw [vacant.blockHost] at held ⊢
    split
    · refine ⟨Nat.dvd_mul_left .., ?_⟩
      show _ ≤ max _ (_ + (replicate geometry.clusterSize (0 : UInt8)).length)
      rw [length_replicate]
      exact Nat.le_max_right ..
    · next differ =>
      rw [if_neg differ] at held
      exact ⟨(before.hosts index held).1, (before.hosts index held).2.trans length⟩
  · rw [vacant.blockHost] at leftHeld same
    rw [vacant.blockHost] at same
    split at same
    · next rightIs =>
      split at same
      · next leftIs => rw [rightIs, leftIs]
      · next leftOther =>
        rw [if_neg leftOther] at leftHeld
        exact absurd same.symm (apart left leftHeld)
    · next rightOther =>
      split at same
      · next leftIs =>
        have rightHeld : store.blockHost right ≠ 0 := same.trans_ne vacant.home_ne_zero
        exact absurd same (apart right rightHeld)
      · next leftOther =>
        rw [if_neg leftOther] at leftHeld
        exact before.distinct left right leftHeld same
  · obtain ⟨differ, there⟩ := isCached held
    rw [vacant.blockHost] at heldBlock ⊢
    split
    · exact differ.symm
    · next other =>
      rw [if_neg other] at heldBlock
      exact before.apart host index there heldBlock

end

theorem Vacant.refcount (supported : geometry.Supported) (ledger : Ledger geometry store region pinned tabled)
    (vacant : Vacant geometry store tableIndex hostIdx) (cluster : Nat) :
    (store.withBlock geometry tableIndex hostIdx).refcount geometry cluster = store.refcount geometry cluster := by
  have coherent := ledger.coherent
  rw [Store.refcount, Store.refcount, vacant.blockHost]
  by_cases own : cluster / geometry.refblockEntries = tableIndex
  · rw [if_pos own, if_neg vacant.home_ne_zero, own, vacant.missing, if_pos rfl]
    have uncached : store.refblockCache.find? tableIndex = none := not_not.mp fun held =>
      coherent.allocated tableIndex held vacant.missing
    have block : (store.withBlock geometry tableIndex hostIdx).block geometry tableIndex =
        replicate geometry.clusterSize 0 := by
      have absent : (store.withBlock geometry tableIndex hostIdx).refblockCache.map.get? tableIndex = none := uncached
      rw [Store.block, currentTable_of_none absent, vacant.blockHost, if_pos rfl]
      have zeros := File.read_patch_self store.file (hostIdx * geometry.clusterSize)
        (replicate geometry.clusterSize 0)
      rwa [length_replicate] at zeros
    rw [block]
    exact bitsGet_zeros _ _ _ supported.width
  rw [if_neg own]
  split
  · rfl
  rename_i present
  have block : (store.withBlock geometry tableIndex hostIdx).block geometry (cluster / geometry.refblockEntries) =
      store.block geometry (cluster / geometry.refblockEntries) := by
    cases held : store.refblockCache.map.get? (cluster / geometry.refblockEntries) with
    | some entry =>
      rw [Store.block, Store.block, currentTable_of_some held]
      exact currentTable_of_some held
    | none =>
      rw [Store.block, Store.block, currentTable_of_none held]
      refine (currentTable_of_none held).trans ?_
      rw [vacant.blockHost, if_neg own]
      exact read_withBlock (coherent.hosts _ present).1 (vacant.not_isBlock ledger _ present)
  rw [block]

theorem content_withBlock (differ : cluster ≠ hostIdx) :
    (store.withBlock geometry tableIndex hostIdx).content geometry cluster = store.content geometry cluster := by
  have apart : cluster * geometry.clusterSize ≠ hostIdx * geometry.clusterSize := fun same =>
    differ (Nat.eq_of_mul_eq_mul_right geometry.clusterSize_pos same)
  have cached : (store.l2Cache.remove (hostIdx * geometry.clusterSize)).map.get? (cluster * geometry.clusterSize) =
      store.l2Cache.map.get? (cluster * geometry.clusterSize) := by
    have removed := TableCache.find?_remove store.l2Cache (hostIdx * geometry.clusterSize) (cluster * geometry.clusterSize)
    rwa [if_neg apart] at removed
  cases held : store.l2Cache.map.get? (cluster * geometry.clusterSize) with
  | some entry =>
    rw [held] at cached
    rw [Store.content, Store.content, currentTable_of_some held]
    exact currentTable_of_some cached
  | none =>
    rw [held] at cached
    rw [Store.content, Store.content, currentTable_of_none held]
    exact (currentTable_of_none cached).trans (read_withBlock (Nat.dvd_mul_left ..) apart)

structure Extends (geometry : Geometry) (store after : Store) (region : List Nat) (pinned tabled : Nat → Nat) : Prop
    extends Keeps geometry store after pinned tabled where
  ledger : Ledger geometry after region pinned tabled
  offset : after.refcountTableOffset = store.refcountTableOffset
  clusters : after.refcountTableClusters = store.refcountTableClusters
  entries : after.refcountTable.length = store.refcountTable.length
  fits : store.file.length ≤ geometry.host.maxFileLen → after.file.length ≤ geometry.host.maxFileLen

theorem Extends.trans {first second third : Store} (left : Extends geometry first second region pinned tabled)
    (right : Extends geometry second third region pinned tabled) :
    Extends geometry first third region pinned tabled :=
  ⟨left.toKeeps.trans right.toKeeps fun _ => ⟨le_rfl, le_rfl⟩, right.ledger, right.offset.trans left.offset,
    right.clusters.trans left.clusters, right.entries.trans left.entries, fun fits => right.fits (left.fits fits)⟩

theorem Refilled.extends (refilled : Refilled geometry store after region pinned tabled)
    (ledger : Ledger geometry store region pinned tabled) : Extends geometry store after region pinned tabled :=
  ⟨refilled.keeps ledger, refilled.ledger, refilled.offset, refilled.clusters, congrArg List.length refilled.table,
    fun fits => refilled.length ▸ fits⟩

theorem Vacant.extends (supported : geometry.Supported) (ledger : Ledger geometry store region pinned tabled)
    (vacant : Vacant geometry store tableIndex hostIdx)
    (recounted : Recounted geometry (store.withBlock geometry tableIndex hostIdx) after hostIdx 1) :
    Extends geometry store after region pinned tabled := by
  obtain ⟨notBlock, outside, unpinned, untabled⟩ := ledger.unclaimed vacant.unused
  have hosts (index : Nat) : after.blockHost index =
      if index = tableIndex then hostIdx * geometry.clusterSize else store.blockHost index :=
    (recounted.toSameTable.blockHost index).trans (vacant.blockHost index)
  have isBlock {cluster : Nat} (held : after.IsBlock geometry cluster) :
      cluster = hostIdx ∨ store.IsBlock geometry cluster := by
    obtain ⟨index, present, home⟩ := held
    rw [hosts] at present home
    split at home
    · exact .inl (Nat.eq_of_mul_eq_mul_right geometry.clusterSize_pos home.symm)
    · next other =>
      rw [if_neg other] at present
      exact .inr ⟨index, present, home⟩
  have pointed (cluster : Nat) : (pointers geometry after.refcountTable).count cluster =
      (pointers geometry store.refcountTable).count cluster + if cluster = hostIdx then 1 else 0 := by
    have inside := vacant.inside
    have old : store.refcountTable[tableIndex]? = some store.refcountTable[tableIndex] :=
      getElem?_eq_getElem vacant.inside
    have nowhere : pointer geometry store.refcountTable[tableIndex] = [] := by
      have missing := vacant.missing
      rw [Store.blockHost, getD_eq_getElem?_getD, old] at missing
      exact pointer_of_hostOf_eq_zero missing
    have new : pointer geometry (BitVec.ofNat 64 (hostIdx * geometry.clusterSize)) = [hostIdx] := by
      rw [pointer, hostOf_ofNat vacant.host, if_neg vacant.home_ne_zero, mul_div_clusterSize]
    have replaced := @count_flatMap_set _ _ _ (pointer geometry) _ _ _ old
      (BitVec.ofNat 64 (hostIdx * geometry.clusterSize)) cluster
    have single : [hostIdx].count cluster = if cluster = hostIdx then 1 else 0 := by
      rw [count_singleton]
      exact if_congr (by rw [beq_iff_eq, eq_comm]) rfl rfl
    rw [nowhere, new, count_nil, single] at replaced
    rw [recounted.table]
    exact replaced
  have before := vacant.refcount supported ledger
  refine ⟨⟨?_, fun cluster claimed => ?_⟩, ⟨recounted.coherent, fun cluster => ?_, fun cluster held => ?_, ledger.regionApart,
    ledger.tablesApart, fun cluster cached => ?_, ledger.header, fun cluster listed => ?_⟩, recounted.offset, recounted.clusters, ?_, fun fits => ?_⟩
  · rw [recounted.length]
    exact Nat.le_max_left ..
  · have differ : cluster ≠ hostIdx := by
      rintro rfl
      omega
    rw [recounted.content cluster, content_withBlock differ]
    rintro held
    rcases isBlock (recounted.toSameTable.isBlock.mpr held) with same | old
    · exact differ same
    · exact ledger.not_isBlock claimed old
  · rw [recounted.refcount, pointed, before, ledger.counted]
    split
    · next same =>
      have zero := ledger.counted hostIdx
      rw [vacant.unused] at zero
      subst same
      omega
    · omega
  · rcases isBlock held with rfl | old
    · exact ⟨outside, unpinned, untabled⟩
    · exact ledger.blocksApart cluster old
  · rw [recounted.l2] at cached
    apply ledger.keys cluster
    intro absent
    apply cached
    show (store.l2Cache.remove _).find? _ = none
    rw [TableCache.find?_remove, absent]
    split <;> rfl
  · rw [recounted.free, if_neg (by decide), SortedMap.get?_erase] at listed
    split at listed
    · exact absurd rfl listed
    rename_i differ
    obtain ⟨zero, covered⟩ := ledger.free cluster listed
    rw [recounted.refcount, if_neg differ, before, Store.Covered, hosts]
    refine ⟨zero, ?_⟩
    split
    · exact vacant.home_ne_zero
    · exact covered
  · rw [recounted.table]
    exact length_set
  · rw [recounted.length]
    show max _ (_ + (replicate geometry.clusterSize (0 : UInt8)).length) ≤ _
    rw [length_replicate]
    exact Nat.max_le.mpr ⟨fits, vacant.room⟩

/-- The entries of the refcount table that have no block yet. -/
def Store.spare (store : Store) : Nat := store.refcountTable.countP fun entry => hostOf entry = 0

theorem Store.spare_congr (same : after.refcountTable = store.refcountTable) : after.spare = store.spare := by
  rw [Store.spare, Store.spare, same]

theorem Vacant.spare (vacant : Vacant geometry store tableIndex hostIdx)
    (recounted : Recounted geometry (store.withBlock geometry tableIndex hostIdx) after hostIdx 1) :
    store.spare = after.spare + 1 := by
  have inside := vacant.inside
  have old : hostOf store.refcountTable[tableIndex] = 0 := by
    have missing := vacant.missing
    rwa [Store.blockHost, getD_eq_getElem?_getD, getElem?_eq_getElem inside] at missing
  have new : hostOf (BitVec.ofNat 64 (hostIdx * geometry.clusterSize)) ≠ 0 := by
    rw [hostOf_ofNat vacant.host]
    exact vacant.home_ne_zero
  have counted : 0 < store.refcountTable.countP fun entry => hostOf entry = 0 :=
    countP_pos_iff.mpr ⟨_, getElem_mem inside, decide_eq_true old⟩
  rw [Store.spare, Store.spare, recounted.table]
  show _ = (store.refcountTable.set tableIndex _).countP _ + 1
  rw [countP_set inside, if_pos (decide_eq_true old), if_neg (by simpa using new)]
  omega

theorem Vacant.seesFree (supported : geometry.Supported) (ledger : Ledger geometry store region pinned tabled)
    (vacant : Vacant geometry store tableIndex hostIdx)
    (recounted : Recounted geometry (store.withBlock geometry tableIndex hostIdx) after hostIdx 1) :
    after.SeesFree geometry := by
  have several := supported.two_le_refblockEntries
  -- One of the first two clusters of the block is not its own.
  obtain ⟨index, small, other⟩ : ∃ index < 2, tableIndex * geometry.refblockEntries + index ≠ hostIdx := by
    by_cases own : tableIndex * geometry.refblockEntries = hostIdx
    · exact ⟨1, by decide, by omega⟩
    · exact ⟨0, by decide, by omega⟩
  have block := (div_mod_of_lt tableIndex (by omega : index < geometry.refblockEntries)).1
  refine ⟨tableIndex * geometry.refblockEntries + index, .inr ⟨?_, ?_, ?_⟩⟩
  · rw [recounted.scanNext]
    exact (Nat.min_le_right ..).trans (Nat.le_add_right ..)
  · rw [Store.Covered, block, recounted.toSameTable.blockHost, vacant.blockHost, if_pos rfl]
    exact vacant.home_ne_zero
  · rw [recounted.refcount, if_neg other, vacant.refcount supported ledger]
    apply Store.refcount_eq_zero
    rw [Store.Covered, block]
    exact not_not.mpr vacant.missing

end

variable {store : Store} {region : List Nat} {pinned tabled : Nat → Nat} {tableIndex : Nat}

theorem vacant_of_hole {taken : Store} {hole : Option Nat} (standard : geometry.Standard)
    (ledger : Ledger geometry taken region pinned tabled) (inside : tableIndex < taken.refcountTable.length)
    (missing : taken.blockHost tableIndex = 0)
    (run : ∀ first, hole = some first → FreeRun geometry taken first (max 1 1))
    (fits : hole.getD (tableIndex * geometry.refblockEntries) * geometry.clusterSize + geometry.clusterSize ≤
      geometry.host.maxFileLen) :
    Vacant geometry taken tableIndex (hole.getD (tableIndex * geometry.refblockEntries)) ∧
      (taken.withBlock geometry tableIndex (hole.getD (tableIndex * geometry.refblockEntries))).Covered geometry
        (hole.getD (tableIndex * geometry.refblockEntries)) := by
  have used : 0 < taken.refcount geometry 0 := by
    have header := ledger.header
    rw [ledger.refcount_eq (.inl header)]
    omega
  cases hole with
  | some first =>
    obtain ⟨zero, covered⟩ := (run first rfl).free 0 (by decide)
    have vacant : Vacant geometry taken tableIndex first := by
      refine ⟨inside, missing, zero, ?_, standard.hostOffset fits, fits⟩
      rintro rfl
      rw [Nat.add_zero] at zero
      omega
    refine ⟨vacant, ?_⟩
    rw [Option.getD_some, Store.Covered, vacant.blockHost]
    split
    · exact vacant.home_ne_zero
    · exact covered
  | none =>
    have own : tableIndex * geometry.refblockEntries / geometry.refblockEntries = tableIndex :=
      Nat.mul_div_cancel _ standard.refblockEntries_pos
    have zero : taken.refcount geometry (tableIndex * geometry.refblockEntries) = 0 := by
      apply Store.refcount_eq_zero
      rw [Store.Covered, own]
      exact not_not.mpr missing
    have vacant : Vacant geometry taken tableIndex (tableIndex * geometry.refblockEntries) := by
      refine ⟨inside, missing, zero, fun atHeader => ?_, standard.hostOffset fits, fits⟩
      rw [atHeader] at zero
      omega
    refine ⟨vacant, ?_⟩
    rw [Option.getD_none, Store.Covered, vacant.blockHost, own, if_pos rfl]
    exact vacant.home_ne_zero

variable {fuel : Nat}

theorem allocRefblock_spec (standard : geometry.Standard) (ledger : Ledger geometry store region pinned tabled)
    (inside : tableIndex < store.refcountTable.length) (missing : store.blockHost tableIndex = 0) :
    Ensures (allocRefblock geometry fuel tableIndex) store fun _ after =>
      store.spare = after.spare + 1 ∧ Extends geometry store after region pinned tabled ∧ after.SeesFree geometry := by
  cases fuel with
  | zero => exact .throw
  | succ fuel =>
    have supported := standard.toSupported
    refine .bind (refillFreeMap_spec supported.refblockEntries_pos false ledger) ?_
    rintro _ filled ⟨refilled, _⟩
    refine .bind (takeMappedRun_spec 1 refilled.ledger) ?_
    rintro hole taken ⟨took, run, _⟩
    have refilled := refilled.trans took
    apply modifyThen
    refine .bind (writeFile_ends _ _ _).ensures fun _ written wrote => ?_
    have nonempty : replicate geometry.clusterSize (0 : UInt8) ≠ [] := by
      have size := geometry.clusterSize_pos
      rw [Ne, replicate_eq_nil_iff]
      omega
    rcases wrote with ⟨empty, _⟩ | ⟨_, fits, rfl⟩
    · exact absurd empty nonempty
    rw [length_replicate] at fits
    obtain ⟨vacant, covered⟩ := vacant_of_hole standard refilled.ledger (by rwa [refilled.table])
      ((refilled.toSameTable.blockHost tableIndex).trans missing) run fits
    refine (setClusterRefcount_ends standard.toSupported (vacant.coherent refilled.ledger) covered
      (Nat.one_lt_two_pow standard.width.pos.ne')).ensures.mono fun _ after recounted => ?_
    have spare := vacant.spare recounted
    rw [Store.spare, refilled.table] at spare
    exact ⟨spare, (refilled.extends ledger).trans (vacant.extends supported refilled.ledger recounted),
      vacant.seesFree supported refilled.ledger recounted⟩

theorem findFree_succ (fuel count : Nat) : findFree geometry (fuel + 1) count = (do
      let found ← (do refillFreeMap geometry false; takeMappedRun count : StoreM (Option Nat))
      match found with
      | some first => pure first
      | none => do
          let found ← (do refillFreeMap geometry true; takeMappedRun count : StoreM (Option Nat))
          match found with
          | some first => pure first
          | none => do
              growCoverage geometry fuel
              findFree geometry fuel count) := by
  conv_rhs => simp only [bind_assoc]
  exact findFree.eq_2 ..

section

variable (standard : geometry.Standard) (ledger : Ledger geometry store region pinned tabled)
include standard ledger

theorem growCoverage_spec (fuel : Nat) : Spends Store.spare 1 (growCoverage geometry fuel) store fun _ after =>
      Extends geometry store after region pinned tabled ∧ after.SeesFree geometry := by
  cases fuel with
  | zero => exact Ensures.throw
  | succ fuel =>
    apply Spends.getThen
    cases first : store.refcountTable.findIdx? fun entry => hostOf entry = 0 with
    | some index =>
      obtain ⟨inside, zero, _⟩ := findIdx?_eq_some_iff_getElem.mp first
      have missing : store.blockHost index = 0 := by
        rw [Store.blockHost, getD_eq_getElem?_getD, getElem?_eq_getElem inside]
        exact of_decide_eq_true zero
      exact (allocRefblock_spec standard ledger inside missing).mono fun _ _ extended _ => ⟨extended.1.le, extended.2⟩
    | none =>
      intro _ after _ enough
      have none : store.spare = 0 := countP_eq_zero.mpr fun entry member => by
        rw [findIdx?_eq_none_iff.mp first entry member]
        decide
      omega

theorem search_spec (toEnd : Bool) : Ensures (do refillFreeMap geometry toEnd; takeMappedRun 1 : StoreM (Option Nat)) store
      fun found after => after.spare = store.spare ∧ Extends geometry store after region pinned tabled ∧
        (∀ first, found = some first → FreeRun geometry after first 1) ∧ (store.SeesFree geometry → found ≠ none) := by
  refine .bind (refillFreeMap_spec standard.refblockEntries_pos toEnd ledger) ?_
  rintro _ filled ⟨refilled, lists⟩
  refine (takeMappedRun_spec 1 refilled.ledger).mono ?_
  rintro found taken ⟨took, run, takes⟩
  have both := refilled.trans took
  exact ⟨Store.spare_congr both.table, both.extends ledger, run, fun sees => takes le_rfl (lists sees)⟩

theorem findFree_spec (fuel : Nat) : Spends Store.spare 1 (findFree geometry fuel 1) store fun first after =>
      Extends geometry store after region pinned tabled ∧ FreeRun geometry after first 1 := by
  cases fuel with
  | zero => exact Ensures.throw
  | succ fuel =>
    rw [findFree_succ]
    refine .bindKept (search_spec standard ledger false) ?_
    rintro found first ⟨extended, run, _⟩
    cases found with
    | some start => exact .of_kept (Ensures.pure ⟨rfl, extended, run start rfl⟩)
    | none =>
      refine .bindKept (search_spec standard extended.ledger true) ?_
      rintro found second ⟨more, run, _⟩
      have extended := extended.trans more
      cases found with
      | some start => exact .of_kept (Ensures.pure ⟨rfl, extended, run start rfl⟩)
      | none =>
        refine .bindLast (growCoverage_spec standard extended.ledger fuel) ?_
        rintro _ covered ⟨grown, sees⟩
        have extended := extended.trans grown
        -- The new block has a free cluster, which the next search finds.
        cases fuel with
        | zero => exact Ensures.throw
        | succ fuel =>
          rw [findFree_succ]
          refine .bindKept (search_spec standard extended.ledger false) ?_
          rintro found last ⟨more, run, finds⟩
          cases found with
          | some start => exact .of_kept (Ensures.pure ⟨rfl, extended.trans more, run start rfl⟩)
          | none => exact absurd rfl (finds sees)

end

theorem Ledger.uncache (ledger : Ledger geometry store region pinned tabled)
    (zero : store.refcount geometry cluster = 0) :
    Extends geometry store { store with l2Cache := store.l2Cache.remove (cluster * geometry.clusterSize) }
      region pinned tabled := by
  have coherent := ledger.coherent
  have before {key : Nat} {entry : List UInt8 × Bool}
      (held : (store.l2Cache.remove (cluster * geometry.clusterSize)).find? key = some entry) :
      store.l2Cache.find? key = some entry := by
    rw [TableCache.find?_remove] at held
    split at held
    · cases held
    · exact held
  have present {key : Nat} (held : (store.l2Cache.remove (cluster * geometry.clusterSize)).find? key ≠ none) :
      store.l2Cache.find? key ≠ none := by
    obtain ⟨entry, found⟩ := Option.ne_none_iff_exists'.mp held
    exact before found ▸ Option.some_ne_none _
  obtain ⟨_, _, unpinned, untabled⟩ := ledger.unclaimed zero
  refine ⟨⟨le_rfl, fun other claimed => ?_⟩, ⟨⟨⟨fun key table dirty held => coherent.l2.cached key table dirty (before held),
    fun key other held heldOther same => coherent.l2.injective key other (present held) (present heldOther) same⟩,
    coherent.blocks, coherent.allocated, coherent.hosts, coherent.distinct,
    fun host tableIndex held => coherent.apart host tableIndex (present held)⟩, ledger.counted, ledger.blocksApart,
    ledger.regionApart, ledger.tablesApart, fun other cached => ledger.keys other (present cached), ledger.header,
    ledger.free⟩, rfl, rfl, rfl, id⟩
  have differ : other * geometry.clusterSize ≠ cluster * geometry.clusterSize := fun same => by
    cases Nat.eq_of_mul_eq_mul_right geometry.clusterSize_pos same
    omega
  have removed := TableCache.find?_remove store.l2Cache (cluster * geometry.clusterSize) (other * geometry.clusterSize)
  rw [if_neg differ] at removed
  simp only [TableCache.find?] at removed
  rw [Store.content, Store.content, currentTable, currentTable, removed]

structure Allocated (geometry : Geometry) (store after : Store) (region : List Nat) (pinned tabled : Nat → Nat)
    (fresh : List Nat) : Prop extends Keeps geometry store after pinned tabled where
  ledger : Ledger geometry after region (withClaims pinned fresh) tabled
  unclaimed : ∀ cluster ∈ fresh, pinned cluster = 0 ∧ tabled cluster = 0
  entries : after.refcountTable.length = store.refcountTable.length
  fits : store.file.length ≤ geometry.host.maxFileLen → after.file.length ≤ geometry.host.maxFileLen

theorem claimFree_spec (supported : geometry.Supported) (ledger : Ledger geometry store region pinned tabled)
    (zero : store.refcount geometry cluster = 0) (covered : store.Covered geometry cluster) : Ensures (do
        modify fun store => { store with l2Cache := store.l2Cache.remove (cluster * geometry.clusterSize) }
        setClusterRefcount geometry fuel cluster 1 : StoreM Unit) store fun _ after =>
      Allocated geometry store after region pinned tabled [cluster] ∧ after.refcountTable = store.refcountTable := by
  apply modifyThen
  have uncached := ledger.uncache zero
  obtain ⟨_, _, unpinned, untabled⟩ := ledger.unclaimed zero
  have absent : (store.l2Cache.remove (cluster * geometry.clusterSize)).find? (cluster * geometry.clusterSize) = none := by
    rw [TableCache.find?_remove, if_pos rfl]
  have one : (1 : Nat) < 2 ^ geometry.refcountBits := Nat.one_lt_two_pow supported.width.pos.ne'
  have here : withClaims pinned [cluster] cluster = pinned cluster + 1 := by simp [withClaims_cons]
  refine (uncached.ledger.setRefcount supported (withClaims pinned [cluster]) tabled covered one fun _ recounted =>
    uncached.ledger.recount recounted covered (fun other differ => ⟨by simp [withClaims_cons, differ], rfl⟩) ?_
      (fun _ => .inr ⟨zero, absent⟩) id (Nat.lt_of_lt_of_le ledger.header (Nat.le_add_right ..))).mono ?_
  · have none : Store.refcount geometry { store with l2Cache := store.l2Cache.remove (cluster * geometry.clusterSize) }
        cluster = 0 := zero
    omega
  rintro _ after ⟨claimed, adjusted⟩
  have kept : Keeps geometry { store with l2Cache := store.l2Cache.remove (cluster * geometry.clusterSize) } after
      pinned tabled := by
    exact ⟨adjusted.length.ge, fun other isClaimed => adjusted.content other (uncached.ledger.not_isBlock isClaimed)⟩
  refine ⟨⟨uncached.toKeeps.trans kept fun _ => ⟨le_rfl, le_rfl⟩, claimed, ?_,
    congrArg List.length adjusted.table, fun fits => adjusted.length ▸ fits⟩, adjusted.table⟩
  intro other member
  cases mem_singleton.mp member
  exact ⟨unpinned, untabled⟩

theorem Extends.allocated {middle : Store} {fresh : List Nat}
    (extended : Extends geometry store middle region pinned tabled)
    (allocated : Allocated geometry middle after region pinned tabled fresh) :
    Allocated geometry store after region pinned tabled fresh :=
  ⟨extended.toKeeps.trans allocated.toKeeps fun _ => ⟨le_rfl, le_rfl⟩, allocated.ledger,
    allocated.unclaimed, allocated.entries.trans extended.entries, fun fits => allocated.fits (extended.fits fits)⟩

theorem allocCluster_spec (standard : geometry.Standard) (ledger : Ledger geometry store region pinned tabled) (fuel : Nat) :
    Spends Store.spare 1 (allocCluster geometry fuel) store fun host after =>
      ∃ cluster, host = cluster * geometry.clusterSize ∧ Allocated geometry store after region pinned tabled [cluster] := by
  refine .bindLast (findFree_spec standard ledger fuel) ?_
  rintro index middle ⟨extended, run⟩
  obtain ⟨zero, covered⟩ := run.free 0 (by decide)
  have claimed : Ensures (setClusterRefcount geometry fuel index 1)
      { middle with l2Cache := middle.l2Cache.remove (index * geometry.clusterSize) } fun _ after =>
        Allocated geometry middle after region pinned tabled [index] ∧ after.refcountTable = middle.refcountTable :=
    claimFree_spec standard.toSupported extended.ledger zero covered
  apply Spends.of_kept
  apply modifyThen
  refine .bind claimed ?_
  rintro _ after ⟨allocated, table⟩
  exact .pure ⟨Store.spare_congr table, index, rfl, extended.allocated allocated⟩

end Vmlab.Disk.Qcow2
