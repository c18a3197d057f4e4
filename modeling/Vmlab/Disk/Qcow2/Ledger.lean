import Vmlab.Disk.Qcow2.StoreProperties
import Vmlab.Library.Counting

/-!
# The refcount ledger

Every refcount is the number of claims on its cluster: the refcount blocks, the region of the refcount table, and the
claims of the store's users. Clusters that may be cached as L2 tables are kept apart from all others.
-/

namespace Vmlab.Disk.Qcow2

open Library List

variable {geometry : Geometry} {cluster : Nat} {pinned' tabled' : Nat → Nat}

def pointer (geometry : Geometry) (entry : Entry) : List Nat :=
  if hostOf entry = 0 then [] else [hostOf entry / geometry.clusterSize]

def pointers (geometry : Geometry) (entries : List Entry) : List Nat := entries.flatMap (pointer geometry)

variable {entry : Entry}

theorem mem_pointer :
    cluster ∈ pointer geometry entry ↔ hostOf entry ≠ 0 ∧ cluster = hostOf entry / geometry.clusterSize := by
  unfold pointer
  split <;> simp_all

theorem mem_pointers {entries : List Entry} : cluster ∈ pointers geometry entries ↔
      ∃ entry ∈ entries, hostOf entry ≠ 0 ∧ cluster = hostOf entry / geometry.clusterSize := by
  simp [pointers, mem_pointer]

theorem pointer_withCopied (entry : Entry) (copied : Bool) :
    pointer geometry (withCopied entry copied) = pointer geometry entry := by
  simp [pointer]

theorem pointer_of_hostOf_eq_zero (none : hostOf entry = 0) : pointer geometry entry = [] :=
  if_pos none

theorem div_mul_of_dvd {host : Nat} (aligned : geometry.clusterSize ∣ host) :
    host / geometry.clusterSize * geometry.clusterSize = host :=
  Nat.div_mul_cancel aligned

theorem div_mod_of_lt {size index : Nat} (count : Nat) (inside : index < size) :
    (count * size + index) / size = count ∧ (count * size + index) % size = index :=
  (Nat.div_mod_unique (Nat.zero_lt_of_lt inside)).mpr ⟨by rw [Nat.add_comm, Nat.mul_comm], inside⟩

theorem mul_div_clusterSize (geometry : Geometry) (cluster : Nat) :
    cluster * geometry.clusterSize / geometry.clusterSize = cluster :=
  Nat.mul_div_cancel _ (Geometry.clusterSize_pos geometry)

namespace Store

variable {store : Store}

theorem lt_length_of_blockHost {tableIndex : Nat} (present : store.blockHost tableIndex ≠ 0) :
    tableIndex < store.refcountTable.length := by
  by_contra outside
  apply present
  rw [blockHost, getD_eq_getElem?_getD, getElem?_eq_none (by omega)]
  rfl

theorem mem_pointers_refcountTable (coherent : Coherent geometry store) :
    cluster ∈ pointers geometry store.refcountTable ↔ store.IsBlock geometry cluster := by
  rw [mem_pointers]
  constructor
  · rintro ⟨entry, member, present, rfl⟩
    obtain ⟨index, found⟩ := getElem?_of_mem member
    have host : store.blockHost index = hostOf entry := by
      rw [blockHost, getD_eq_getElem?_getD, found]
      rfl
    refine ⟨index, host ▸ present, ?_⟩
    rw [host, div_mul_of_dvd]
    exact host ▸ (coherent.hosts index (host ▸ present)).1
  rintro ⟨index, present, same⟩
  have inside := lt_length_of_blockHost present
  refine ⟨store.refcountTable[index], getElem_mem inside, ?_, ?_⟩
  · rwa [blockHost, getD_eq_getElem?_getD, getElem?_eq_getElem inside] at present
  rw [blockHost, getD_eq_getElem?_getD, getElem?_eq_getElem inside] at same
  have same : hostOf store.refcountTable[index] = cluster * geometry.clusterSize := same
  rw [same, mul_div_clusterSize]

end Store

/-- The refcounts of a store, cluster by cluster: `pinned` counts the claims on
clusters that are used directly, `tabled` those on L2 tables. -/
structure Ledger (geometry : Geometry) (store : Store) (region : List Nat) (pinned tabled : Nat → Nat) : Prop where
  coherent : Coherent geometry store
  counted : ∀ cluster, store.refcount geometry cluster =
    (pointers geometry store.refcountTable).count cluster + region.count cluster + pinned cluster + tabled cluster
  blocksApart : ∀ cluster, store.IsBlock geometry cluster → cluster ∉ region ∧ pinned cluster = 0 ∧ tabled cluster = 0
  regionApart : ∀ cluster ∈ region, pinned cluster = 0 ∧ tabled cluster = 0
  tablesApart : ∀ cluster, 0 < tabled cluster → pinned cluster = 0
  keys : ∀ cluster, store.l2Cache.find? (cluster * geometry.clusterSize) ≠ none →
    cluster ∉ region ∧ pinned cluster = 0
  header : 0 < pinned 0
  free : ∀ cluster, store.free.set.get? cluster ≠ none →
    store.refcount geometry cluster = 0 ∧ store.Covered geometry cluster

structure Keeps (geometry : Geometry) (store after : Store) (pinned tabled : Nat → Nat) : Prop where
  length : store.file.length ≤ after.file.length
  content : ∀ cluster, 0 < pinned cluster ∨ 0 < tabled cluster →
    after.content geometry cluster = store.content geometry cluster

theorem Keeps.refl (store : Store) (pinned tabled : Nat → Nat) : Keeps geometry store store pinned tabled :=
  ⟨le_rfl, fun _ _ => rfl⟩

variable {second first third : Store}

theorem Keeps.trans {pinned tabled : Nat → Nat}
    (left : Keeps geometry first second pinned tabled) (right : Keeps geometry second third pinned' tabled')
    (more : ∀ cluster, pinned cluster ≤ pinned' cluster ∧ tabled cluster ≤ tabled' cluster) :
    Keeps geometry first third pinned tabled where
  length := left.length.trans right.length
  content cluster claimed := by
    have := more cluster
    rw [right.content cluster (by omega), left.content cluster claimed]

structure Recounted (geometry : Geometry) (store after : Store) (cluster value : Nat) : Prop
    extends Still geometry store after where
  coherent : Coherent geometry after
  l2 : after.l2Cache = store.l2Cache
  free : after.free.set = if value = 0 then store.free.set.insert cluster () else store.free.set.erase cluster
  scanNext : after.free.scanNext = store.free.scanNext
  refcount : ∀ other, after.refcount geometry other = if other = cluster then value else store.refcount geometry other

theorem ensureRefcountTableLen_of_le {store : Store} {fuel length : Nat}
    (enough : length ≤ store.refcountTable.length) :
    Ends (ensureRefcountTableLen geometry fuel length) store (fun _ after => store = after) fun _ _ => fuel = 0 := by
  cases fuel with
  | zero => exact .throw rfl
  | succ fuel =>
    apply Ends.get
    exact .ite (fun _ => .pure rfl) fun short => absurd enough short

variable {value : Nat}

section

variable (supported : geometry.Supported) {store : Store} (coherent : Coherent geometry store) {fuel : Nat}
  (covered : store.Covered geometry cluster) (fits : value < 2 ^ geometry.refcountBits)
include supported coherent covered fits

theorem setClusterRefcount_ends : Ends (setClusterRefcount geometry fuel cluster value) store
      (fun _ after => Recounted geometry store after cluster value) fun _ _ => ¬(geometry.Writes store ∧ 2 ≤ fuel) := by
  cases fuel with
  | zero => exact .throw (by omega)
  | succ fuel =>
    have inside : cluster / geometry.refblockEntries < store.refcountTable.length :=
      Store.lt_length_of_blockHost covered
    refine .bind ((ensureRefcountTableLen_of_le inside).monoBad fun _ _ none => by omega) ?_
    rintro _ _ rfl
    apply Ends.get
    rw [if_neg covered]
    apply Ends.pureThen
    refine .bind ((Coherent.refblockSet_ends supported coherent covered fits).monoBad fun _ _ blocked may =>
      blocked may.1) fun _ middle set => ?_
    apply Ends.modify
    exact ⟨⟨⟨set.table, set.offset, set.clusters⟩, set.length, set.content⟩,
      ⟨set.coherent.l2, set.coherent.blocks, set.coherent.allocated, set.coherent.hosts, set.coherent.distinct,
        set.coherent.apart⟩, set.l2, by simp only [Store.noteFree, set.free], by simp only [Store.noteFree, set.free],
      set.refcount⟩

end

namespace Ledger

variable {store after : Store} {region : List Nat} {pinned tabled : Nat → Nat}

section

variable (ledger : Ledger geometry store region pinned tabled)
include ledger

theorem unclaimed (zero : store.refcount geometry cluster = 0) :
    ¬store.IsBlock geometry cluster ∧ cluster ∉ region ∧ pinned cluster = 0 ∧ tabled cluster = 0 := by
  have counted := ledger.counted cluster
  rw [zero] at counted
  refine ⟨fun isBlock => ?_, fun member => ?_, by omega, by omega⟩
  · have := count_pos_iff.mpr ((Store.mem_pointers_refcountTable ledger.coherent).mpr isBlock)
    omega
  · have := count_pos_iff.mpr member
    omega

theorem not_isBlock
    (claimed : 0 < pinned cluster ∨ 0 < tabled cluster) : ¬store.IsBlock geometry cluster := fun isBlock => by
  have := ledger.blocksApart cluster isBlock
  omega

theorem refcount_eq (claimed : 0 < pinned cluster ∨ 0 < tabled cluster) :
    store.refcount geometry cluster = pinned cluster + tabled cluster := by
  have noPointer : (pointers geometry store.refcountTable).count cluster = 0 :=
    count_eq_zero.mpr fun member => ledger.not_isBlock claimed ((Store.mem_pointers_refcountTable ledger.coherent).mp member)
  have outside : region.count cluster = 0 := count_eq_zero.mpr fun member => by
    have := ledger.regionApart cluster member
    omega
  rw [ledger.counted, noPointer, outside]
  omega

end

theorem covered_of_refcount (positive : 0 < store.refcount geometry cluster) :
    store.Covered geometry cluster := fun missing => by
  rw [Store.refcount_eq_zero (not_not.mpr missing)] at positive
  omega

variable (ledger : Ledger geometry store region pinned tabled)
include ledger

theorem covered (claimed : 0 < pinned cluster ∨ 0 < tabled cluster) : store.Covered geometry cluster := by
  apply covered_of_refcount
  rw [ledger.refcount_eq claimed]
  omega

theorem uncached (claimed : 0 < pinned cluster) : store.l2Cache.find? (cluster * geometry.clusterSize) = none := by
  by_contra cached
  have := (ledger.keys cluster cached).2
  omega

theorem congr (samePinned : ∀ cluster, pinned' cluster = pinned cluster)
    (sameTabled : ∀ cluster, tabled' cluster = tabled cluster) : Ledger geometry store region pinned' tabled' := by
  cases funext samePinned
  cases funext sameTabled
  exact ledger

theorem refresh (still : Still geometry store after) (coherent : Coherent geometry after)
    (refcount : ∀ cluster, after.refcount geometry cluster = store.refcount geometry cluster)
    (keys : ∀ cluster, after.l2Cache.find? (cluster * geometry.clusterSize) ≠ none →
      cluster ∉ region ∧ pinned cluster = 0)
    (free : ∀ cluster, after.free.set.get? cluster ≠ none →
      store.refcount geometry cluster = 0 ∧ store.Covered geometry cluster) :
    Ledger geometry after region pinned tabled where
  coherent := coherent
  counted cluster := by rw [refcount, still.table, ledger.counted]
  blocksApart cluster isBlock := ledger.blocksApart cluster (still.toSameTable.isBlock.mp isBlock)
  regionApart := ledger.regionApart
  tablesApart := ledger.tablesApart
  keys := keys
  header := ledger.header
  free cluster listed := by
    obtain ⟨zero, covered⟩ := free cluster listed
    refine ⟨(refcount cluster).trans zero, ?_⟩
    rw [Store.Covered, still.toSameTable.blockHost]
    exact covered

theorem counts (counted : Coherent.Counted geometry store after) : Ledger geometry after region pinned tabled :=
  ledger.refresh counted.toStill counted.coherent counted.refcount (by rw [counted.l2]; exact ledger.keys)
    (by rw [counted.free]; exact ledger.free)

theorem loadsL2 (loaded : Coherent.LoadedL2 geometry store after cluster) (outside : cluster ∉ region)
    (unpinned : pinned cluster = 0) : Ledger geometry after region pinned tabled := by
  refine ledger.refresh loaded.toStill loaded.coherent loaded.refcount (fun other cached => ?_)
    (by rw [loaded.free]; exact ledger.free)
  rcases loaded.keys _ cached with same | before
  · have equal : other = cluster := Nat.eq_of_mul_eq_mul_right (Geometry.clusterSize_pos geometry) same
    exact equal ▸ ⟨outside, unpinned⟩
  · exact ledger.keys other before

theorem recount (recounted : Recounted geometry store after cluster value) (covered : store.Covered geometry cluster)
    (others : ∀ other, other ≠ cluster → pinned' other = pinned other ∧ tabled' other = tabled other)
    (claims : value + (pinned cluster + tabled cluster) =
    store.refcount geometry cluster + (pinned' cluster + tabled' cluster))
    (pins : 0 < pinned' cluster → 0 < pinned cluster ∨ store.refcount geometry cluster = 0 ∧
    store.l2Cache.find? (cluster * geometry.clusterSize) = none)
    (tables : 0 < tabled' cluster → 0 < tabled cluster) (header : 0 < pinned' 0) :
    Ledger geometry after region pinned' tabled' := by
  -- What the cluster itself has to satisfy; the others are as before.
  have counted := ledger.counted cluster
  have fresh (zero : store.refcount geometry cluster = 0) := ledger.unclaimed zero
  have apart (claimed : 0 < pinned' cluster ∨ 0 < tabled' cluster) :
      ¬store.IsBlock geometry cluster ∧ cluster ∉ region := by
    have old : (0 < pinned cluster ∨ 0 < tabled cluster) ∨ store.refcount geometry cluster = 0 := by
      rcases claimed with isPinned | isTabled
      · exact (pins isPinned).imp .inl And.left
      · exact .inl (.inr (tables isTabled))
    rcases old with before | zero
    · exact ⟨ledger.not_isBlock before, fun member => by
        have := ledger.regionApart cluster member; omega⟩
    · exact ⟨(fresh zero).1, (fresh zero).2.1⟩
  refine ⟨recounted.coherent, ?_, ?_, ?_, ?_, ?_, header, ?_⟩
  · intro other
    rw [recounted.refcount, recounted.table]
    split
    · next same =>
      subst same
      omega
    · next differ =>
      rw [ledger.counted, (others other differ).1, (others other differ).2]
  · intro other isBlock
    have isBlock := recounted.toSameTable.isBlock.mp isBlock
    by_cases same : other = cluster
    · subst same
      refine ⟨(ledger.blocksApart other isBlock).1, ?_⟩
      by_contra claimed
      exact (apart (by omega)).1 isBlock
    · rw [(others other same).1, (others other same).2]
      exact ledger.blocksApart other isBlock
  · intro other member
    by_cases same : other = cluster
    · subst same
      by_contra claimed
      exact (apart (by omega)).2 member
    · rw [(others other same).1, (others other same).2]
      exact ledger.regionApart other member
  · intro other isTabled
    by_cases same : other = cluster
    · subst same
      have old := tables isTabled
      by_contra isPinned
      rcases pins (by omega) with before | ⟨zero, _⟩
      · have := ledger.tablesApart other old
        omega
      · have := (fresh zero).2.2.2
        omega
    · rw [(others other same).1]
      rw [(others other same).2] at isTabled
      exact ledger.tablesApart other isTabled
  · intro other cached
    rw [recounted.l2] at cached
    by_cases same : other = cluster
    · subst same
      refine ⟨(ledger.keys other cached).1, ?_⟩
      by_contra isPinned
      rcases pins (by omega) with before | ⟨_, absent⟩
      · have := (ledger.keys other cached).2
        omega
      · exact cached absent
    · rw [(others other same).1]
      exact ledger.keys other cached
  · intro other listed
    rw [recounted.free] at listed
    have sameCover : after.Covered geometry other ↔ store.Covered geometry other := by
      rw [Store.Covered, Store.Covered, recounted.toSameTable.blockHost]
    rw [sameCover, recounted.refcount]
    by_cases same : other = cluster
    · subst same
      rw [if_pos rfl]
      refine ⟨?_, covered⟩
      by_contra positive
      rw [if_neg positive, SortedMap.get?_erase, if_pos rfl] at listed
      exact listed rfl
    rw [if_neg same]
    refine ledger.free other ?_
    split at listed
    · rwa [SortedMap.get?_insert, if_neg same] at listed
    · rwa [SortedMap.get?_erase, if_neg same] at listed

end Ledger

/-! ### Taking and giving up references -/

open Library

variable {geometry : Geometry}

section

variable (claims : Nat → Nat)

def withClaims (clusters : List Nat) (cluster : Nat) : Nat := claims cluster + clusters.count cluster

@[simp] theorem withClaims_nil : withClaims claims [] = claims := by
  funext cluster
  simp [withClaims]

theorem withClaims_cons (first : Nat) (clusters : List Nat) (cluster : Nat) :
    withClaims claims (first :: clusters) cluster = withClaims claims clusters cluster + if cluster = first then 1 else 0 := by
  simp only [withClaims, List.count_cons, beq_iff_eq]
  split
  · next same => simp [same, Nat.add_assoc]
  · next differ => simp [Ne.symm differ]

theorem withClaims_append (left right : List Nat) (cluster : Nat) :
    withClaims claims (left ++ right) cluster = withClaims (withClaims claims right) left cluster := by
  simp only [withClaims, List.count_append]
  omega

end

namespace Store

theorem refcount_lt (supported : geometry.Supported) (store : Store) (cluster : Nat) :
    store.refcount geometry cluster < 2 ^ geometry.refcountBits := by
  unfold refcount
  dsimp only
  split
  · exact Nat.two_pow_pos _
  · exact bitsGet_lt supported.width

end Store

structure Adjusted (geometry : Geometry) (store after : Store) : Prop extends Still geometry store after where
  l2 : after.l2Cache = store.l2Cache

theorem Adjusted.refl (store : Store) : Adjusted geometry store store := ⟨Still.refl store, rfl⟩

theorem Adjusted.trans (left : Adjusted geometry first second)
    (right : Adjusted geometry second third) : Adjusted geometry first third :=
  ⟨left.toStill.trans right.toStill, right.l2.trans left.l2⟩

theorem Coherent.Counted.adjusted {store after : Store} (counted : Coherent.Counted geometry store after) :
    Adjusted geometry store after := ⟨counted.toStill, counted.l2⟩

namespace Ledger

variable {store : Store} {region : List Nat} {pinned tabled : Nat → Nat} {fuel cluster : Nat}

section

variable (supported : geometry.Supported) (ledger : Ledger geometry store region pinned tabled)
include supported ledger

theorem setRefcount (pinned' tabled' : Nat → Nat) (covered : store.Covered geometry cluster)
    (fits : value < 2 ^ geometry.refcountBits)
    (recounts : ∀ after, Recounted geometry store after cluster value → Ledger geometry after region pinned' tabled') :
    Ensures (setClusterRefcount geometry fuel cluster value) store fun _ after =>
      Ledger geometry after region pinned' tabled' ∧ Adjusted geometry store after := by
  refine (setClusterRefcount_ends supported ledger.coherent covered fits).ensures.mono fun _ after recounted => ?_
  exact ⟨recounts after recounted, recounted.toStill, recounted.l2⟩

theorem setSame (claimed : pinned cluster = 1) :
    Ensures (setClusterRefcount geometry fuel cluster 1) store fun _ after =>
      Ledger geometry after region pinned tabled ∧ Adjusted geometry store after := by
  have unshared : tabled cluster = 0 := by
    by_contra isTabled
    have := ledger.tablesApart cluster (by omega)
    omega
  have value : store.refcount geometry cluster = 1 := by
    rw [ledger.refcount_eq (.inl (by omega))]
    omega
  have covered := ledger.covered (.inl (claimed ▸ Nat.one_pos))
  refine ledger.setRefcount supported pinned tabled covered (value ▸ store.refcount_lt supported cluster) fun _ recounted => ?_
  exact ledger.recount recounted covered (fun _ _ => ⟨rfl, rfl⟩) (by omega) (fun _ => .inl (by omega)) id ledger.header

end

theorem lt_of_lt_refcountMax (room : ¬geometry.refcountMax ≤ value) : value + 1 < 2 ^ geometry.refcountBits := by
  have small : 2 ^ (geometry.refcountBits % 64) ≤ 2 ^ geometry.refcountBits :=
    Nat.pow_le_pow_right (by decide) (Nat.mod_le _ _)
  have positive := Nat.two_pow_pos (geometry.refcountBits % 64)
  rw [Geometry.refcountMax] at room
  omega

variable (supported : geometry.Supported)
include supported

/-- Giving up one claim on a cluster, of either kind. -/
theorem decClaim {pinned' tabled' : Nat → Nat} (ledger : Ledger geometry store region pinned tabled)
    (others : ∀ other, other ≠ cluster → pinned' other = pinned other ∧ tabled' other = tabled other)
    (claims : pinned cluster + tabled cluster = pinned' cluster + tabled' cluster + 1)
    (pins : pinned' cluster ≤ pinned cluster) (tables : tabled' cluster ≤ tabled cluster) (header : 0 < pinned' 0) :
    Ensures (decRefcount geometry fuel cluster) store fun _ after =>
      Ledger geometry after region pinned' tabled' ∧ Adjusted geometry store after := by
  refine .bind (Coherent.getRefcount_ends ledger.coherent cluster).ensures ?_
  rintro _ middle ⟨rfl, counted⟩
  refine .ite (fun _ => .throw) fun some => ?_
  have ledger' := ledger.counts counted
  have small := store.refcount_lt supported cluster
  have covered : middle.Covered geometry cluster := ledger'.covered (by omega)
  refine (ledger'.setRefcount supported pinned' tabled' covered (by omega) fun _ recounted =>
    ledger'.recount recounted covered others ?_ (fun _ => .inl (by omega)) (fun _ => by omega) header).mono ?_
  · rw [counted.refcount]
    omega
  · rintro _ after ⟨lowered, adjusted⟩
    exact ⟨lowered, counted.adjusted.trans adjusted⟩

theorem decPinned {pinned' : Nat → Nat}
    (ledger : Ledger geometry store region (withClaims pinned' [cluster]) tabled) (header : 0 < pinned' 0) :
    Ensures (decRefcount geometry fuel cluster) store fun _ after =>
      Ledger geometry after region pinned' tabled ∧ Adjusted geometry store after := by
  have here : withClaims pinned' [cluster] cluster = pinned' cluster + 1 := by simp [withClaims_cons]
  refine ledger.decClaim supported (fun other differ => ⟨?_, rfl⟩) (by omega) (by omega) (Nat.le_refl _) header
  simp [withClaims_cons, differ]

theorem decTabled {tabled' : Nat → Nat}
    (ledger : Ledger geometry store region pinned (withClaims tabled' [cluster])) :
    Ensures (decRefcount geometry fuel cluster) store fun _ after =>
      Ledger geometry after region pinned tabled' ∧ Adjusted geometry store after := by
  have here : withClaims tabled' [cluster] cluster = tabled' cluster + 1 := by simp [withClaims_cons]
  refine ledger.decClaim supported (fun other differ => ⟨rfl, ?_⟩) (by omega) (Nat.le_refl _) (by omega) ledger.header
  simp [withClaims_cons, differ]

variable {clusters : List Nat}

theorem decAllPinned {pinned' : Nat → Nat}
    (ledger : Ledger geometry store region (withClaims pinned' clusters) tabled) (header : 0 < pinned' 0) :
    Ensures (clusters.forM (decRefcount geometry fuel)) store fun _ after =>
      Ledger geometry after region pinned' tabled ∧ Adjusted geometry store after := by
  apply Ensures.mono
  · apply Ensures.forM fun remaining state =>
      Ledger geometry state region (withClaims pinned' remaining) tabled ∧ Adjusted geometry store state
    · exact ⟨ledger, .refl store⟩
    rintro first rest state ⟨current, adjusted⟩
    have split : Ledger geometry state region (withClaims (withClaims pinned' rest) [first]) tabled :=
      current.congr (fun other => (withClaims_append pinned' [first] rest other).symm) fun _ => rfl
    refine (split.decPinned supported (Nat.lt_of_lt_of_le header (Nat.le_add_right ..))).mono ?_
    rintro _ after ⟨lowered, more⟩
    exact ⟨lowered, adjusted.trans more⟩
  · rintro _ after ⟨done, adjusted⟩
    rw [withClaims_nil] at done
    exact ⟨done, adjusted⟩

end Ledger

/-! ### The free map only ever holds covered clusters without references -/

variable {geometry : Geometry}

theorem scanBlock_set (toEnd : Bool) (block : List UInt8) (base : Nat) (indexes : List Nat) (free : FreeClusters)
    {cluster : Nat} (listed : (scanBlock geometry toEnd block base indexes free).1.set.get? cluster ≠ none) :
    free.set.get? cluster ≠ none ∨
      ∃ index ∈ indexes, cluster = base + index ∧ bitsGet block index geometry.refcountBits = 0 := by
  induction indexes generalizing free with
  | nil => exact .inl listed
  | cons index indexes ih =>
    have step (held : (if bitsGet block index geometry.refcountBits = 0 then free.set.insert (base + index) ()
        else free.set).get? cluster ≠ none) : free.set.get? cluster ≠ none ∨
        ∃ other ∈ index :: indexes, cluster = base + other ∧ bitsGet block other geometry.refcountBits = 0 := by
      split at held
      · next zero =>
        rw [SortedMap.get?_insert] at held
        split at held
        · next same => exact .inr ⟨index, mem_cons_self, same, zero⟩
        · exact .inl held
      · exact .inl held
    unfold scanBlock at listed
    dsimp only at listed
    generalize (if bitsGet block index geometry.refcountBits = 0 then free.set.insert (base + index) ()
      else free.set) = set at listed step
    split at listed
    · exact step listed
    rcases ih _ listed with before | ⟨other, member, same, zero⟩
    · exact step before
    · exact .inr ⟨other, mem_cons_of_mem _ member, same, zero⟩

theorem exists_of_size_pos {set : SortedMap Nat Unit} (some : 0 < set.size) : ∃ cluster, set.get? cluster ≠ none := by
  obtain ⟨⟨cluster, value⟩, held⟩ := List.exists_mem_of_length_pos some
  refine ⟨cluster, ?_⟩
  rw [SortedMap.get?_eq_some.mpr (SortedMap.mem_def.mpr held)]
  exact Option.some_ne_none _

theorem scanBlock_finds (toEnd : Bool) (block : List UInt8) (base : Nat) (indexes : List Nat) (free : FreeClusters) :
    let (found, enough) := scanBlock geometry toEnd block base indexes free
    (∀ cluster, free.set.get? cluster ≠ none → found.set.get? cluster ≠ none) ∧ (enough = true → 0 < found.set.size) ∧
      (enough = false → ∀ index ∈ indexes, bitsGet block index geometry.refcountBits = 0 →
        found.set.get? (base + index) ≠ none) := by
  induction indexes generalizing free with
  | nil => exact ⟨fun _ listed => listed, nofun, fun _ _ member => (nomatch member)⟩
  | cons index indexes ih =>
    have kept (cluster : Nat) (listed : free.set.get? cluster ≠ none) :
        (if bitsGet block index geometry.refcountBits = 0 then free.set.insert (base + index) ()
          else free.set).get? cluster ≠ none := by
      split
      · rw [SortedMap.get?_insert]
        split
        · exact Option.some_ne_none _
        · exact listed
      · exact listed
    have here (zero : bitsGet block index geometry.refcountBits = 0) :
        (if bitsGet block index geometry.refcountBits = 0 then free.set.insert (base + index) ()
          else free.set).get? (base + index) ≠ none := by
      rw [if_pos zero, SortedMap.get?_insert, if_pos rfl]
      exact Option.some_ne_none _
    unfold scanBlock
    dsimp only
    generalize (if bitsGet block index geometry.refcountBits = 0 then free.set.insert (base + index) ()
      else free.set) = set at kept here ⊢
    split
    · next many =>
      have target : freeScanTarget ≤ set.size := by simpa using (Bool.and_eq_true_iff.mp many).2
      exact ⟨kept, fun _ => (by decide : 0 < freeScanTarget).trans_le target, nofun⟩
    obtain ⟨more, several, all⟩ := ih { set, scanNext := base + index + 1 }
    refine ⟨fun cluster listed => more cluster (kept cluster listed), several, fun ended other member zero => ?_⟩
    rcases mem_cons.mp member with rfl | later
    · exact more _ (here zero)
    · exact all ended other later zero

theorem mem_of_findRun {count : Nat} {clusters : List Nat} {start length first : Nat} (seen : Nat → Prop)
    (before : ∀ offset, offset < length → seen (start + offset)) (inList : ∀ cluster ∈ clusters, seen cluster)
    (found : findRun count clusters start length = some first) :
    ∀ offset, offset < count → seen (first + offset) := by
  induction clusters generalizing start length with
  | nil => simp [findRun] at found
  | cons cluster clusters ih =>
    unfold findRun at found
    have here := inList cluster mem_cons_self
    have later (other : Nat) (member : other ∈ clusters) : seen other := inList other (mem_cons_of_mem _ member)
    by_cases continues : 0 < length ∧ cluster = start + length
    · simp only [if_pos continues] at found
      have extended (offset : Nat) (inside : offset < length + 1) : seen (start + offset) := by
        rcases Nat.lt_succ_iff_lt_or_eq.mp inside with earlier | last
        · exact before offset earlier
        · rw [last, ← continues.2]
          exact here
      split at found
      · next full =>
        cases found
        exact full ▸ extended
      · exact ih extended later found
    simp only [if_neg continues] at found
    have single (offset : Nat) (inside : offset < 1) : seen (cluster + offset) := by
      rw [Nat.lt_one_iff.mp inside]
      exact here
    split at found
    · next full =>
      cases found
      exact full ▸ single
    · exact ih single later found

structure Refilled (geometry : Geometry) (store after : Store) (region : List Nat) (pinned tabled : Nat → Nat) : Prop
    extends Still geometry store after where
  ledger : Ledger geometry after region pinned tabled
  l2 : after.l2Cache = store.l2Cache
  refcount : ∀ cluster, after.refcount geometry cluster = store.refcount geometry cluster

section

variable {store : Store} {region : List Nat} {pinned tabled : Nat → Nat}

/-- A free cluster is on the list, or the scan has still to come to one. -/
def Store.SeesFree (geometry : Geometry) (store : Store) : Prop :=
  ∃ cluster, store.free.set.get? cluster ≠ none ∨
    store.free.scanNext ≤ cluster ∧ store.Covered geometry cluster ∧ store.refcount geometry cluster = 0

theorem Refilled.refl (ledger : Ledger geometry store region pinned tabled) :
    Refilled geometry store store region pinned tabled := ⟨Still.refl store, ledger, rfl, fun _ => rfl⟩

theorem Refilled.trans {first second third : Store} (left : Refilled geometry first second region pinned tabled)
    (right : Refilled geometry second third region pinned tabled) :
    Refilled geometry first third region pinned tabled :=
  ⟨left.toStill.trans right.toStill, right.ledger, right.l2.trans left.l2,
    fun cluster => (right.refcount cluster).trans (left.refcount cluster)⟩

theorem Refilled.keeps {after : Store} (refilled : Refilled geometry store after region pinned tabled)
    (ledger : Ledger geometry store region pinned tabled) : Keeps geometry store after pinned tabled where
  length := refilled.length.ge
  content cluster claimed := refilled.content cluster (ledger.not_isBlock claimed)

theorem Refilled.setFree {middle : Store} (refilled : Refilled geometry store middle region pinned tabled)
    (free : FreeClusters) (listed : ∀ cluster, free.set.get? cluster ≠ none →
      middle.refcount geometry cluster = 0 ∧ middle.Covered geometry cluster) :
    Refilled geometry store { middle with free } region pinned tabled := by
  have coherent := refilled.ledger.coherent
  have still : Still geometry middle { middle with free } := ⟨⟨rfl, rfl, rfl⟩, rfl, fun _ _ => rfl⟩
  refine ⟨refilled.toStill.trans still, ?_, refilled.l2, refilled.refcount⟩
  exact refilled.ledger.refresh still
    ⟨coherent.l2, coherent.blocks, coherent.allocated, coherent.hosts, coherent.distinct, coherent.apart⟩
    (fun _ => rfl) refilled.ledger.keys listed

theorem scanCoverage_spec (positive : 0 < geometry.refblockEntries) (toEnd : Bool) (rounds : Nat)
    (ledger : Ledger geometry store region pinned tabled) :
    Ensures (scanCoverage geometry toEnd rounds) store fun _ after =>
      Refilled geometry store after region pinned tabled ∧
        (store.SeesFree geometry → ∃ cluster, after.free.set.get? cluster ≠ none) := by
  induction rounds generalizing store with
  | zero => exact .throw
  | succ rounds ih =>
    apply Ensures.getThen
    have later {cluster : Nat} (ahead : store.free.scanNext ≤ cluster)
        (other : cluster / geometry.refblockEntries ≠ store.free.scanNext / geometry.refblockEntries) :
        (store.free.scanNext / geometry.refblockEntries + 1) * geometry.refblockEntries ≤ cluster := by
      have : store.free.scanNext / geometry.refblockEntries ≤ cluster / geometry.refblockEntries := Nat.div_le_div_right ahead
      exact (Nat.le_div_iff_mul_le positive).mp (by omega)
    refine .ite (fun more => ?_) fun ended => .pure ⟨.refl ledger, ?_⟩
    · refine .ite (fun missing => ?_) fun present => ?_
      · apply Ensures.modifyThen
        have moved := (Refilled.refl ledger).setFree { store.free with
          scanNext := (store.free.scanNext / geometry.refblockEntries + 1) * geometry.refblockEntries } ledger.free
        refine (ih moved.ledger).mono ?_
        rintro _ _ ⟨rest, finds⟩
        refine ⟨moved.trans rest, ?_⟩
        rintro ⟨cluster, listed | ⟨ahead, covered, zero⟩⟩
        · exact finds ⟨cluster, .inl listed⟩
        · refine finds ⟨cluster, .inr ⟨later ahead fun same => covered ?_, covered, zero⟩⟩
          rw [same, missing]
      refine .bind (Coherent.readRefblock_ends ledger.coherent).ensures ?_
      rintro _ middle ⟨rfl, loaded⟩
      have counted : Coherent.Counted geometry store middle := ⟨loaded.toQuiet, loaded.coherent, loaded.l2⟩
      have refilled : Refilled geometry store middle region pinned tabled :=
        ⟨loaded.toStill, ledger.counts counted, loaded.l2, loaded.refcount⟩
      -- What the scan lists was listed before or is zero in the block it read.
      have listed (cluster : Nat) (found : (scanBlock geometry toEnd
          (store.block geometry (store.free.scanNext / geometry.refblockEntries))
          (store.free.scanNext / geometry.refblockEntries * geometry.refblockEntries)
          (range' (store.free.scanNext % geometry.refblockEntries)
            (geometry.refblockEntries - store.free.scanNext % geometry.refblockEntries))
          store.free).1.set.get? cluster ≠ none) :
          middle.refcount geometry cluster = 0 ∧ middle.Covered geometry cluster := by
        rw [loaded.refcount, Store.Covered, loaded.toSameTable.blockHost]
        rcases scanBlock_set _ _ _ _ _ found with before | ⟨index, member, rfl, zero⟩
        · exact ledger.free cluster before
        have inside : index < geometry.refblockEntries := by
          have := mem_range'_1.mp member
          omega
        obtain ⟨quotient, remainder⟩ := div_mod_of_lt (store.free.scanNext / geometry.refblockEntries) inside
        rw [Store.refcount, quotient, remainder, if_neg present]
        exact ⟨zero, present⟩
      obtain ⟨kept, several, all⟩ := @scanBlock_finds geometry toEnd
        (store.block geometry (store.free.scanNext / geometry.refblockEntries))
        (store.free.scanNext / geometry.refblockEntries * geometry.refblockEntries)
        (range' (store.free.scanNext % geometry.refblockEntries)
          (geometry.refblockEntries - store.free.scanNext % geometry.refblockEntries)) store.free
      dsimp only
      generalize scanBlock geometry toEnd (store.block geometry (store.free.scanNext / geometry.refblockEntries)) _ _ _ =
        result at listed kept several all ⊢
      refine .ite (fun enough => ?_) fun less => ?_
      · apply Ensures.modify
        exact ⟨refilled.setFree _ listed, fun _ => exists_of_size_pos (several enough)⟩
      apply Ensures.modifyThen
      have scanned := refilled.setFree { set := _, scanNext :=
        (store.free.scanNext / geometry.refblockEntries + 1) * geometry.refblockEntries } listed
      refine .ite (fun target => .pure ⟨scanned, fun _ => exists_of_size_pos ?_⟩) fun _ => ?_
      · have target : freeScanTarget ≤ result.1.set.size := by simpa using (Bool.and_eq_true_iff.mp target).2
        exact (by decide : 0 < freeScanTarget).trans_le target
      refine (ih scanned.ledger).mono ?_
      rintro _ _ ⟨rest, finds⟩
      refine ⟨scanned.trans rest, ?_⟩
      rintro ⟨cluster, before | ⟨ahead, covered, zero⟩⟩
      · exact finds ⟨cluster, .inl (kept cluster before)⟩
      by_cases same : cluster / geometry.refblockEntries = store.free.scanNext / geometry.refblockEntries
      · have whole := Nat.div_add_mod' cluster geometry.refblockEntries
        have start := Nat.div_add_mod' store.free.scanNext geometry.refblockEntries
        have small := Nat.mod_lt cluster positive
        rw [Store.refcount, if_neg covered, same] at zero
        rw [same] at whole
        have found := all (by simpa using less) (cluster % geometry.refblockEntries) (mem_range'_1.mpr (by omega)) zero
        rw [whole] at found
        exact finds ⟨cluster, .inl found⟩
      · refine finds ⟨cluster, .inr ⟨later ahead same, ?_, (loaded.refcount cluster).trans zero⟩⟩
        exact fun gone => covered ((loaded.toSameTable.blockHost _).symm.trans gone)
    rintro ⟨cluster, listed | ⟨ahead, covered, _⟩⟩
    · exact ⟨cluster, listed⟩
    · have inside := (Nat.div_lt_iff_lt_mul positive).mp (Store.lt_length_of_blockHost covered)
      omega

theorem refillFreeMap_spec (positive : 0 < geometry.refblockEntries) (toEnd : Bool)
    (ledger : Ledger geometry store region pinned tabled) :
    Ensures (refillFreeMap geometry toEnd) store fun _ after =>
      Refilled geometry store after region pinned tabled ∧
        (store.SeesFree geometry → ∃ cluster, after.free.set.get? cluster ≠ none) := by
  apply Ensures.getThen
  exact scanCoverage_spec positive toEnd _ ledger

structure FreeRun (geometry : Geometry) (store : Store) (first count : Nat) : Prop where
  free : ∀ offset, offset < count → store.refcount geometry (first + offset) = 0 ∧
    store.Covered geometry (first + offset)
  unlisted : ∀ offset, offset < count → store.free.set.get? (first + offset) = none

theorem takeMappedRun_spec (count : Nat) (ledger : Ledger geometry store region pinned tabled) :
    Ensures (takeMappedRun count) store fun found after =>
      Refilled geometry store after region pinned tabled ∧
        (∀ first, found = some first → FreeRun geometry after first (max count 1)) ∧
        (count ≤ 1 → (∃ cluster, store.free.set.get? cluster ≠ none) → found ≠ none) := by
  apply Ensures.getThen
  dsimp only
  cases run : findRun (max count 1) (store.free.set.entries.map Prod.fst) 0 0 with
  | none =>
    refine .pure ⟨.refl ledger, fun _ none => (nomatch none), ?_⟩
    rintro single ⟨cluster, listed⟩
    rw [Nat.max_eq_right single] at run
    obtain ⟨value, held⟩ := Option.ne_none_iff_exists'.mp listed
    have member := SortedMap.mem_def.mp (SortedMap.get?_eq_some.mp held)
    cases entries : store.free.set.entries with
    | nil =>
      rw [entries] at member
      cases member
    | cons entry entries' =>
      rw [entries] at run
      simp [findRun] at run
  | some first =>
    apply Ensures.modifyThen
    refine .pure ⟨?_, ?_, fun _ _ => Option.some_ne_none _⟩
    · refine (Refilled.refl ledger).setFree _ fun cluster listed => ledger.free cluster ?_
      rw [SortedMap.get?_foldl_erase] at listed
      split at listed
      · exact absurd rfl listed
      · exact listed
    intro other same
    cases same
    have member := mem_of_findRun (fun cluster => store.free.set.get? cluster ≠ none)
      (fun offset inside => absurd inside (by omega))
      (fun cluster inside => by
        obtain ⟨⟨key, value⟩, held, rfl⟩ := mem_map.mp inside
        rw [SortedMap.get?_eq_some.mpr (SortedMap.mem_def.mpr held)]
        simp) run
    constructor
    · intro offset inside
      exact ledger.free (first + offset) (member offset inside)
    intro offset inside
    show ((range' first (max count 1)).foldl SortedMap.erase store.free.set).get? _ = none
    rw [SortedMap.get?_foldl_erase, if_pos (mem_range'_1.mpr (by omega))]

end

theorem scanBlock_full (toEnd : Bool) (base : Nat) {block : List UInt8} {indexes : List Nat} {free : FreeClusters}
    (full : ∀ index ∈ indexes, bitsGet block index geometry.refcountBits ≠ 0) (few : free.set.size < freeScanTarget) :
    ((scanBlock geometry toEnd block base indexes free).1.set, (scanBlock geometry toEnd block base indexes free).2) =
      (free.set, false) := by
  induction indexes generalizing free with
  | nil => rfl
  | cons index indexes ih =>
    unfold scanBlock
    simp only [if_neg (full index mem_cons_self)]
    rw [if_neg (by simp [few])]
    exact ih (fun other member => full other (mem_cons_of_mem _ member)) few

theorem readRefblock_cached {store : Store} {tableIndex : Nat} {entry : List UInt8 × Bool}
    (cached : store.refblockCache.find? tableIndex = some entry) : readRefblock geometry tableIndex store =
      .ok entry.1 { store with refblockCache := (store.refblockCache.touch tableIndex).touch tableIndex } := by
  have loads : loadRefblock geometry tableIndex store =
      .ok () { store with refblockCache := store.refblockCache.touch tableIndex } := by
    show (if (store.refblockCache.find? tableIndex).isSome = true then _ else _ : StoreM Unit) store = _
    rw [cached]
    rfl
  rw [readRefblock, run_bind loads, run_bind (rfl : (get : StoreM Store) _ = .ok _ _), TableCache.find?_touch, cached]
  rfl

theorem scanCoverage_missing {store : Store} {first rounds : Nat} (toEnd : Bool) (positive : 0 < geometry.refblockEntries)
    (missing : ∀ tableIndex, first ≤ tableIndex → store.blockHost tableIndex = 0)
    (here : store.free.scanNext = first * geometry.refblockEntries)
    (inside : first ≤ store.refcountTable.length) (enough : store.refcountTable.length ≤ first + rounds) :
    scanCoverage geometry toEnd (rounds + 1) store =
      .ok () { store with
        free := { store.free with scanNext := store.refcountTable.length * geometry.refblockEntries } } := by
  induction rounds generalizing store first with
  | zero =>
    have last : first = store.refcountTable.length := Nat.le_antisymm inside enough
    show (if store.free.scanNext < store.refcountTable.length * geometry.refblockEntries then _ else _ : StoreM Unit)
      store = _
    rw [here, last, if_neg (Nat.lt_irrefl _), ← last, ← here]
    rfl
  | succ rounds ih =>
    show (if store.free.scanNext < store.refcountTable.length * geometry.refblockEntries then _ else _ : StoreM Unit)
      store = _
    by_cases last : first = store.refcountTable.length
    · rw [here, last, if_neg (Nat.lt_irrefl _), ← last, ← here]
      rfl
    have more : first < store.refcountTable.length := by omega
    rw [here, if_pos (Nat.mul_lt_mul_of_pos_right more positive), Nat.mul_div_cancel _ positive,
      if_pos (missing first le_rfl)]
    have moved (later : Nat) (after : first + 1 ≤ later) : store.blockHost later = 0 := missing later (by omega)
    exact @ih { store with free := { store.free with scanNext := (first + 1) * geometry.refblockEntries } }
      (first + 1) moved rfl more (by simp only; omega)

theorem refillFreeMap_full {store : Store} {entry : List UInt8 × Bool} (positive : 0 < geometry.refblockEntries)
    (cached : store.refblockCache.find? 0 = some entry) (present : store.blockHost 0 ≠ 0)
    (missing : ∀ tableIndex, 1 ≤ tableIndex → store.blockHost tableIndex = 0) (start : store.free.scanNext = 0)
    (few : store.free.set.size < freeScanTarget)
    (full : ∀ index < geometry.refblockEntries, bitsGet entry.1 index geometry.refcountBits ≠ 0) :
    refillFreeMap geometry false store =
      .ok () { store with
        refblockCache := (store.refblockCache.touch 0).touch 0
        free := { store.free with scanNext := store.refcountTable.length * geometry.refblockEntries } } := by
  have inside := Store.lt_length_of_blockHost present
  obtain ⟨rounds, length⟩ := Nat.exists_eq_add_of_lt inside
  have indexes : ∀ index ∈ range' 0 geometry.refblockEntries, bitsGet entry.1 index geometry.refcountBits ≠ 0 :=
    fun index member => full index (by simpa using member)
  obtain ⟨set, enough⟩ := Prod.mk.inj (scanBlock_full false 0 indexes few)
  show scanCoverage geometry false (store.refcountTable.length + 1) store = _
  show (if store.free.scanNext < store.refcountTable.length * geometry.refblockEntries then _ else _ : StoreM Unit)
    store = _
  rw [start, if_pos (Nat.mul_pos inside positive), Nat.zero_div, if_neg present,
    run_bind (readRefblock_cached cached)]
  dsimp only
  rw [Nat.zero_mul, Nat.zero_mod, Nat.sub_zero]
  rw [set, enough, if_neg (by decide), if_neg (by simp [few])]
  have last := @scanCoverage_missing geometry { store with
    refblockCache := (store.refblockCache.touch 0).touch 0
    free := { store.free with scanNext := (0 + 1) * geometry.refblockEntries } } (0 + 1) rounds false positive missing rfl
    (by simp only; omega) (by simp only; omega)
  rw [show rounds + 1 = store.refcountTable.length by omega] at last
  exact last

end Vmlab.Disk.Qcow2
