import Vmlab.Disk.Qcow2.Store

/-!
# Refcounts and the cluster allocator

`qcow2/refcount.rs`. Growing the refcount table allocates clusters, which may
need new refcount blocks, which again need clusters: the functions that call
each other take the depth of calls they may use.
-/

namespace Vmlab.Disk.Qcow2

open Library
open UInt8 (ofNat toNat_ofNat' toNat_and size)
open BitVec (eq_of_getLsbD_eq getLsbD_and getLsbD_or twoPow)

def freeScanTarget : Nat := 4096

def bitsGet (block : List UInt8) (index width : Nat) : Nat :=
  if width < 16 then
    let bit := index * width
    let mask := ofNat (2 ^ width - 1)
    ((block.getD (bit / 8) 0 >>> ofNat (bit % 8)) &&& mask).toNat
  else bigEndian (window block (index * (width / 8)) (width / 8))

def bitsSet (block : List UInt8) (index width value : Nat) : List UInt8 :=
  if width < 16 then
    let bit := index * width
    let mask := ofNat (2 ^ width - 1)
    let cleared := block.getD (bit / 8) 0 &&& ~~~(mask <<< ofNat (bit % 8))
    block.set (bit / 8) (cleared ||| ((ofNat value &&& mask) <<< ofNat (bit % 8)))
  else overwrite block (index * (width / 8)) (toBigEndian (width / 8) value)

def findRun (count : Nat) : List Nat → Nat → Nat → Option Nat
  | [], _, _ => none
  | cluster :: clusters, start, length =>
    let (start, length) := if 0 < length ∧ cluster = start + length then (start, length + 1) else (cluster, 1)
    if length = count then some start else findRun count clusters start length

variable (geometry : Geometry)

def loadRefblock (tableIndex : Nat) : StoreM Unit := do
  let store ← get
  if (store.refblockCache.find? tableIndex).isSome then
    modify fun store => { store with refblockCache := store.refblockCache.touch tableIndex }
  else
    let host ← refblockHost tableIndex
    let block ← readFile host geometry.clusterSize
    let (refblockCache, evicted) := store.refblockCache.put tableIndex block false
    modify fun store => { store with refblockCache }
    writeTables geometry refblockHost evicted

def readRefblock (tableIndex : Nat) : StoreM (List UInt8) := do
  loadRefblock geometry tableIndex
  match (← get).refblockCache.find? tableIndex with
  | some (block, _) => do
      modify fun store => { store with refblockCache := store.refblockCache.touch tableIndex }
      pure block
  | none => throw .panic

def refblockGet (tableIndex index : Nat) : StoreM Nat := do
  if (← get).blockHost tableIndex = 0 then pure 0
  else
    let block ← readRefblock geometry tableIndex
    pure (bitsGet block index geometry.refcountBits)

def refblockSet (tableIndex index value : Nat) : StoreM Unit := do
  loadRefblock geometry tableIndex
  modify fun store =>
    { store with
      refblockCache := store.refblockCache.update tableIndex fun block =>
        bitsSet block index geometry.refcountBits value }

def getRefcount (clusterIdx : Nat) : StoreM Nat :=
  refblockGet geometry (clusterIdx / geometry.refblockEntries) (clusterIdx % geometry.refblockEntries)

def scanBlock (toEnd : Bool) (block : List UInt8) (base : Nat) : List Nat → FreeClusters → FreeClusters × Bool
  | [], free => (free, false)
  | index :: indexes, free =>
    let set := if bitsGet block index geometry.refcountBits = 0 then free.set.insert (base + index) () else free.set
    let free := { set, scanNext := base + index + 1 }
    if !toEnd && decide (freeScanTarget ≤ set.size) then (free, true)
    else scanBlock toEnd block base indexes free

def scanCoverage (toEnd : Bool) : Nat → StoreM Unit
  | 0 => throw .outOfFuel
  | rounds + 1 => do
      let store ← get
      let rbe := geometry.refblockEntries
      if store.free.scanNext < store.refcountTable.length * rbe then
        let tableIndex := store.free.scanNext / rbe
        let next := (tableIndex + 1) * rbe
        if store.blockHost tableIndex = 0 then do
          modify fun store => { store with free := { store.free with scanNext := next } }
          scanCoverage toEnd rounds
        else do
          let block ← readRefblock geometry tableIndex
          let start := store.free.scanNext % rbe
          let (free, enough) :=
            scanBlock geometry toEnd block (tableIndex * rbe) (List.range' start (rbe - start)) store.free
          if enough then modify fun store => { store with free }
          else do
            modify fun store => { store with free := { free with scanNext := next } }
            if !toEnd && decide (freeScanTarget ≤ free.set.size) then pure ()
            else scanCoverage toEnd rounds
      else pure ()

def refillFreeMap (toEnd : Bool) : StoreM Unit := do
  scanCoverage geometry toEnd ((← get).refcountTable.length + 1)

def takeMappedRun (count : Nat) : StoreM (Option Nat) := do
  let count := max count 1
  let free := (← get).free
  match findRun count (free.set.entries.map Prod.fst) 0 0 with
  | none => pure none
  | some first => do
      let set := (List.range' first count).foldl SortedMap.erase free.set
      modify fun store => { store with free := { store.free with set } }
      pure (some first)

def decRefcountWith (set : Nat → Nat → StoreM Unit) (clusterIdx : Nat) : StoreM Unit := do
  let rc ← getRefcount geometry clusterIdx
  if rc = 0 then throw (.format (.refcountUnderflow clusterIdx)) else set clusterIdx (rc - 1)

def Store.noteFree (store : Store) (clusterIdx value : Nat) : Store :=
  { store with
    free := { store.free with
      set := if value = 0 then store.free.set.insert clusterIdx () else store.free.set.erase clusterIdx } }

def Store.extendTable (store : Store) (length : Nat) : Store :=
  { store with
    refcountTable := store.refcountTable ++ List.replicate (length - store.refcountTable.length) 0 }

def Store.installRefblock (store : Store) (tableIndex hostIdx : Nat) : Store :=
  { store with
    l2Cache := store.l2Cache.remove (hostIdx * geometry.clusterSize)
    refcountTable := store.refcountTable.set tableIndex (BitVec.ofNat 64 (hostIdx * geometry.clusterSize))
    refcountTableDirty := true
    free := { store.free with
      scanNext := min store.free.scanNext (tableIndex * geometry.refblockEntries) } }

mutual

def setClusterRefcount : Nat → Nat → Nat → StoreM Unit
  | 0, _, _ => throw .outOfFuel
  | fuel + 1, clusterIdx, value => do
      let tableIndex := clusterIdx / geometry.refblockEntries
      ensureRefcountTableLen fuel (tableIndex + 1)
      let store ← get
      (if store.blockHost tableIndex = 0 then allocRefblock fuel tableIndex else pure ())
      refblockSet geometry tableIndex (clusterIdx % geometry.refblockEntries) value
      modify fun store => store.noteFree clusterIdx value
  termination_by structural fuel => fuel

def ensureRefcountTableLen : Nat → Nat → StoreM Unit
  | 0, _ => throw .outOfFuel
  | fuel + 1, length => do
      let store ← get
      if length ≤ store.refcountTable.length then pure ()
      else do
        let regionClusters := max (divCeil (length * 8) geometry.clusterSize) 1
        (if store.refcountTableClusters < regionClusters then growRefcountTableRegion fuel regionClusters
          else pure ())
        modify fun store => store.extendTable (store.refcountTableClusters * geometry.clusterSize / 8)
  termination_by structural fuel => fuel

def growRefcountTableRegion : Nat → Nat → StoreM Unit
  | 0, _ => throw .outOfFuel
  | fuel + 1, clusters => do
      let old ← get
      let entries := clusters * geometry.clusterSize / 8
      if clusters ≤ old.refcountTableClusters then pure ()
      else if entries < old.refcountTable.length then throw .panic
      else do
        modify fun store => { store.extendTable entries with refcountTableClusters := clusters % 2 ^ 32 }
        let newOffset ← allocClustersContiguous fuel clusters
        let table := (← get).refcountTable
        if clusters * geometry.clusterSize < table.length * 8 then throw .panic
        else do
          writeFile geometry newOffset
            (wordsToBytes table ++ List.replicate (clusters * geometry.clusterSize - table.length * 8) 0)
          modify fun store =>
            { store with refcountTableOffset := newOffset, refcountTableDirty := true, headerDirty := true }
          (List.range' (newOffset / geometry.clusterSize) clusters).forM fun index =>
            setClusterRefcount fuel index 1
          (List.range' (old.refcountTableOffset / geometry.clusterSize) old.refcountTableClusters).forM
            (decRefcountWith geometry (setClusterRefcount fuel))
  termination_by structural fuel => fuel

def allocRefblock : Nat → Nat → StoreM Unit
  | 0, _ => throw .outOfFuel
  | fuel + 1, tableIndex => do
      refillFreeMap geometry false
      let hole ← takeMappedRun 1
      let hostIdx := hole.getD (tableIndex * geometry.refblockEntries)
      modify fun store => store.installRefblock geometry tableIndex hostIdx
      writeFile geometry (hostIdx * geometry.clusterSize) (List.replicate geometry.clusterSize 0)
      setClusterRefcount fuel hostIdx 1
  termination_by structural fuel => fuel

def allocClustersContiguous : Nat → Nat → StoreM Nat
  | 0, _ => throw .outOfFuel
  | fuel + 1, count => do
      let first ← findFree fuel count
      (List.range' first count).forM fun index => do
        modify fun store => { store with l2Cache := store.l2Cache.remove (index * geometry.clusterSize) }
        setClusterRefcount fuel index 1
      pure (first * geometry.clusterSize)
  termination_by structural fuel => fuel

def findFree : Nat → Nat → StoreM Nat
  | 0, _ => throw .outOfFuel
  | fuel + 1, count => do
      refillFreeMap geometry false
      match ← takeMappedRun count with
      | some first => pure first
      | none => do
          refillFreeMap geometry true
          match ← takeMappedRun count with
          | some first => pure first
          | none => do
              growCoverage fuel
              findFree fuel count
  termination_by structural fuel => fuel

def growCoverage : Nat → StoreM Unit
  | 0 => throw .outOfFuel
  | fuel + 1 => do
      let store ← get
      match store.refcountTable.findIdx? fun entry => hostOf entry = 0 with
      | some index => allocRefblock fuel index
      | none => do
          let index := store.refcountTable.length
          ensureRefcountTableLen fuel (index + 1)
          let store ← get
          (if store.blockHost index = 0 then allocRefblock fuel index else pure ())
  termination_by structural fuel => fuel

end

def decRefcount (fuel : Nat) : Nat → StoreM Unit := decRefcountWith geometry (setClusterRefcount geometry fuel)

def incRefcount (fuel clusterIdx : Nat) : StoreM Unit := do
  let rc ← getRefcount geometry clusterIdx
  if geometry.refcountMax ≤ rc then throw (.unsupported (.refcountOverflow clusterIdx))
  else setClusterRefcount geometry fuel clusterIdx (rc + 1)

def allocCluster (fuel : Nat) : StoreM Nat := do
  let index ← findFree geometry fuel 1
  modify fun store => { store with l2Cache := store.l2Cache.remove (index * geometry.clusterSize) }
  setClusterRefcount geometry fuel index 1
  pure (index * geometry.clusterSize)

inductive Delta where
  | up
  | down

def adjustOne (fuel : Nat) (delta : Delta) (clusterIdx : Nat) : StoreM Unit :=
  match delta with
  | .up => incRefcount geometry fuel clusterIdx
  | .down => decRefcount geometry fuel clusterIdx

def compressedExtent (entry : Entry) : Nat × Nat :=
  let offsetBits := 62 - (geometry.clusterBits - 8)
  (entry.toNat % 2 ^ offsetBits, (entry.toNat >>> offsetBits) % 2 ^ (62 - offsetBits))

/-- The host clusters whose refcounts follow a compressed descriptor. -/
def compressedClusters (entry : Entry) : List Nat :=
  let (offset, additional) := compressedExtent geometry entry
  let first := offset / geometry.clusterSize
  List.range' first (divCeil (offset + (additional + 1) * 512) geometry.clusterSize - first)

def adjustCompressedRefcounts (fuel : Nat) (entry : Entry) (delta : Delta) : StoreM Unit :=
  (compressedClusters geometry entry).forM (adjustOne geometry fuel delta)

def adjustEntry (fuel : Nat) (delta : Delta) (entry : Entry) : StoreM Unit :=
  if isCompressed entry then adjustCompressedRefcounts geometry fuel entry delta
  else if hostOf entry ≠ 0 then adjustOne geometry fuel delta (hostOf entry / geometry.clusterSize)
  else pure ()

/-! ### Reading back refcounts of every width, and the fields of table entries -/

open List

inductive RefcountWidth : Nat → Prop where
  | one : RefcountWidth 1
  | two : RefcountWidth 2
  | four : RefcountWidth 4
  | eight : RefcountWidth 8
  | sixteen : RefcountWidth 16
  | thirtyTwo : RefcountWidth 32
  | sixtyFour : RefcountWidth 64

namespace RefcountWidth

variable {width : Nat} (known : RefcountWidth width)
include known

theorem pos : 0 < width := by
  cases known <;> decide

theorem dvd : width ∣ 64 := by
  cases known <;> decide

theorem dvd_eight (narrow : width < 16) : width ∣ 8 := by
  cases known <;> first | decide | omega

theorem eight_mul (wide : ¬width < 16) : width / 8 * 8 = width ∧ 0 < width / 8 := by
  cases known <;> omega

end RefcountWidth

section

variable {byte value : UInt8} {shift width : Nat}

theorem toNat_mask (narrow : width ≤ 8) : (ofNat (2 ^ width - 1)).toNat = 2 ^ width - 1 := by
  have small : 2 ^ width ≤ 2 ^ 8 := Nat.pow_le_pow_right (by decide) narrow
  rw [toNat_ofNat']
  omega

theorem testBit_field (narrow : shift + width ≤ 8) (some : 0 < width) (index : Nat) :
    ((byte >>> ofNat shift) &&& ofNat (2 ^ width - 1)).toNat.testBit index =
      (decide (index < width) && byte.toNat.testBit (shift + index)) := by
  have amount : (ofNat shift).toNat % 8 = shift := by
    rw [toNat_ofNat']
    omega
  rw [toNat_and, toNat_mask (by omega), UInt8.toNat_shiftRight, amount, Nat.testBit_and,
    Nat.testBit_two_pow_sub_one, Nat.testBit_shiftRight, Bool.and_comm]

theorem testBit_patched (narrow : shift + width ≤ 8) (some : 0 < width) (index : Nat) (inside : index < 8) :
    ((byte &&& ~~~(ofNat (2 ^ width - 1) <<< ofNat shift)) |||
        ((value &&& ofNat (2 ^ width - 1)) <<< ofNat shift)).toNat.testBit index =
      if shift ≤ index ∧ index < shift + width then value.toNat.testBit (index - shift)
      else byte.toNat.testBit index := by
  have amount : (ofNat shift).toNat % 8 = shift := by
    rw [toNat_ofNat']
    omega
  have complement (x : UInt8) : (~~~x).toNat.testBit index = !x.toNat.testBit index := by
    rw [UInt8.toNat_not, show size - 1 - x.toNat = 2 ^ 8 - (x.toNat + 1) by
      rw [show size = 2 ^ 8 from rfl]; omega, Nat.testBit_two_pow_sub_succ x.toNat_lt]
    simp [inside]
  have moved (x : UInt8) : (x <<< ofNat shift).toNat.testBit index =
      (decide (shift ≤ index) && x.toNat.testBit (index - shift)) := by
    rw [UInt8.toNat_shiftLeft, amount, Nat.testBit_mod_two_pow, Nat.testBit_shiftLeft]
    simp [inside]
  rw [UInt8.toNat_or, Nat.testBit_or, toNat_and, Nat.testBit_and, complement, moved, moved, toNat_and,
    Nat.testBit_and, toNat_mask (by omega), Nat.testBit_two_pow_sub_one]
  by_cases low : shift ≤ index
  · by_cases high : index < shift + width
    · have field : index - shift < width := by omega
      simp [low, high, field]
    · have field : ¬index - shift < width := by omega
      simp [low, high, field]
  · simp [low]

end

section

variable {block : List UInt8} {index other width value : Nat}

section

variable (known : RefcountWidth width)
include known

theorem mod_add_le (narrow : width < 16) (index : Nat) : index * width % 8 + width ≤ 8 := by
  obtain ⟨quotient, eight⟩ := known.dvd_eight narrow
  have multiple : index * width % 8 = width * (index % quotient) := by
    rw [eight, Nat.mul_comm, Nat.mul_mod_mul_left]
  have positive : 0 < quotient := by
    rcases Nat.eq_zero_or_pos quotient with zero | positive
    · subst zero
      omega
    · exact positive
  have small := Nat.mod_lt index positive
  rw [multiple]
  calc width * (index % quotient) + width = width * (index % quotient + 1) := by ring
    _ ≤ width * quotient := Nat.mul_le_mul_left _ small
    _ = 8 := eight.symm

theorem field_room (wide : ¬width < 16) (inside : (index + 1) * width ≤ block.length * 8) :
    index * (width / 8) + (toBigEndian (width / 8) value).length ≤ block.length := by
  have bytes : (index + 1) * (width / 8) * 8 ≤ block.length * 8 := by
    rw [Nat.mul_assoc, (known.eight_mul wide).1]
    exact inside
  have := Nat.le_of_mul_le_mul_right bytes (by decide)
  rw [length_toBigEndian]
  rwa [Nat.add_mul, Nat.one_mul] at this

theorem length_bitsSet (inside : (index + 1) * width ≤ block.length * 8) :
    (bitsSet block index width value).length = block.length := by
  unfold bitsSet
  split
  · simp
  · next wide => exact length_overwrite (field_room known wide inside)

theorem bitsGet_lt : bitsGet block index width < 2 ^ width := by
  unfold bitsGet
  split
  · next narrow =>
    have fits := mod_add_le known narrow index
    apply Nat.lt_pow_two_of_testBit
    intro position high
    rw [testBit_field fits known.pos]
    simp [Nat.not_lt.mpr high]
  · next wide =>
    obtain ⟨whole, _⟩ := known.eight_mul wide
    have bound := bigEndian_lt (window block (index * (width / 8)) (width / 8))
    have short : (window block (index * (width / 8)) (width / 8)).length ≤ width / 8 := by
      simp [window]
    calc _ < 256 ^ (window block (index * (width / 8)) (width / 8)).length := bound
      _ ≤ 256 ^ (width / 8) := Nat.pow_le_pow_right (by decide) short
      _ = 2 ^ width := by rw [show (256 : Nat) = 2 ^ 8 from rfl, ← Nat.pow_mul, Nat.mul_comm, whole]

end

theorem bitsGet_zeros (length index width : Nat) (known : RefcountWidth width) :
    bitsGet (replicate length 0) index width = 0 := by
  unfold bitsGet
  split
  · next narrow =>
    have fits := mod_add_le known narrow index
    apply Nat.eq_of_testBit_eq
    intro position
    have zero : (replicate length (0 : UInt8)).getD (index * width / 8) 0 = 0 := by
      rw [getD_eq_getElem?_getD, getElem?_replicate]
      split <;> rfl
    rw [testBit_field fits known.pos, zero]
    simp
  rw [window, drop_replicate, take_replicate, bigEndian_zeros]

variable (known : RefcountWidth width)
include known

theorem bitsGet_bitsSet_narrow (narrow : width < 16)
    (fits : value < 2 ^ width) (inside : (index + 1) * width ≤ block.length * 8) :
    bitsGet (bitsSet block index width value) other width =
      if other = index then value else bitsGet block other width := by
  have field := mod_add_le known narrow index
  have otherField := mod_add_le known narrow other
  have short : index * width / 8 < block.length := by
    have positive := known.pos
    rw [Nat.add_mul] at inside
    omega
  have small : value < 256 := fits.trans_le
    (by rw [show (256 : Nat) = 2 ^ 8 from rfl]; exact Nat.pow_le_pow_right (by decide) (by omega))
  simp only [bitsGet, bitsSet, if_pos narrow]
  apply Nat.eq_of_testBit_eq
  intro position
  rw [testBit_field otherField known.pos, getD_eq_getElem?_getD, getElem?_set]
  by_cases sameByte : index * width / 8 = other * width / 8
  · rw [if_pos sameByte, if_pos short, Option.getD_some]
    by_cases low : position < width
    · rw [testBit_patched field known.pos _ (by omega), toNat_ofNat', Nat.mod_eq_of_lt small]
      by_cases same : other = index
      · subst same
        rw [if_pos rfl, if_pos (by omega), Nat.add_sub_cancel_left]
        simp [low]
      -- Distinct refcounts in one byte are a whole width apart.
      have apart : other * width + width ≤ index * width ∨ index * width + width ≤ other * width := by
        rcases Nat.lt_or_gt_of_ne same with less | more
        · left
          rw [← Nat.succ_mul]
          exact Nat.mul_le_mul_right _ less
        right
        rw [← Nat.succ_mul]
        exact Nat.mul_le_mul_right _ more
      rw [if_neg same, if_neg (by omega), testBit_field otherField known.pos, sameByte, getD_eq_getElem?_getD]
    have high : (if other = index then value else
        ((block.getD (other * width / 8) 0 >>> ofNat (other * width % 8)) &&&
          ofNat (2 ^ width - 1)).toNat).testBit position = false := by
      split
      · exact Nat.testBit_lt_two_pow (fits.trans_le (Nat.pow_le_pow_right (by decide) (by omega)))
      · rw [testBit_field otherField known.pos]
        simp [low]
    rw [high]
    simp [low]
  · have differ : other ≠ index := fun same => sameByte (by rw [same])
    rw [if_neg sameByte, if_neg differ, testBit_field otherField known.pos, getD_eq_getElem?_getD]

theorem bitsGet_bitsSet_wide (wide : ¬width < 16)
    (fits : value < 2 ^ width) (inside : (index + 1) * width ≤ block.length * 8) :
    bitsGet (bitsSet block index width value) other width =
      if other = index then value else bitsGet block other width := by
  obtain ⟨whole, positive⟩ := known.eight_mul wide
  have room : index * (width / 8) + (toBigEndian (width / 8) value).length ≤ block.length :=
    field_room known wide inside
  simp only [bitsGet, bitsSet, if_neg wide]
  split
  · next same =>
    subst same
    have patched := window_overwrite_self room
    rw [length_toBigEndian] at patched
    rw [patched, bigEndian_toBigEndian]
    rw [show (256 : Nat) = 2 ^ 8 from rfl, ← Nat.pow_mul, Nat.mul_comm, whole]
    exact fits
  · next differ =>
    rw [window_overwrite_of_disjoint room]
    rw [length_toBigEndian]
    rcases Nat.lt_or_gt_of_ne differ with less | more
    · left
      rw [← Nat.succ_mul]
      exact Nat.mul_le_mul_right _ less
    right
    rw [← Nat.succ_mul]
    exact Nat.mul_le_mul_right _ more

theorem bitsGet_bitsSet (fits : value < 2 ^ width) (inside : (index + 1) * width ≤ block.length * 8) (other : Nat) :
    bitsGet (bitsSet block index width value) other width =
      if other = index then value else bitsGet block other width := by
  by_cases narrow : width < 16
  · exact bitsGet_bitsSet_narrow known narrow fits inside
  · exact bitsGet_bitsSet_wide known narrow fits inside

end

/-! ### Table entries -/

variable {host : Nat}

theorem getLsbD_offsetMask : ∀ index : Fin 64, offsetMask.getLsbD index = decide (9 ≤ index.val ∧ index.val < 56) := by
  decide

theorem getLsbD_copiedBit : ∀ index : Fin 64, copiedBit.getLsbD index = decide (index.val = 63) := by
  decide

structure HostOffset (host : Nat) : Prop where
  aligned : 512 ∣ host
  small : host < 2 ^ 56

section

variable (valid : HostOffset host)
include valid

theorem HostOffset.testBit_of_low {index : Nat} (low : index < 9) : host.testBit index = false := by
  obtain ⟨quotient, rfl⟩ := valid.aligned
  rw [show (512 : Nat) = 2 ^ 9 from rfl, Nat.testBit_two_pow_mul]
  simp [Nat.not_le.mpr low]

theorem HostOffset.testBit_of_high {index : Nat} (high : 56 ≤ index) : host.testBit index = false :=
  Nat.testBit_lt_two_pow (valid.small.trans_le (Nat.pow_le_pow_right (by decide) high))

theorem ofNat_or_copied_and_mask (bit : Entry) (flag : ∀ index : Fin 64, bit.getLsbD index = true → index.val = 63) :
    (BitVec.ofNat 64 host ||| bit) &&& offsetMask = BitVec.ofNat 64 host := by
  apply eq_of_getLsbD_eq
  intro index inside
  have mask := getLsbD_offsetMask ⟨index, inside⟩
  have marked := flag ⟨index, inside⟩
  dsimp only at mask marked
  rw [getLsbD_and, getLsbD_or, mask, BitVec.getLsbD_ofNat]
  by_cases low : index < 9
  · simp [valid.testBit_of_low low, Nat.not_le.mpr low]
  by_cases high : 56 ≤ index
  · simp [valid.testBit_of_high high, Nat.not_lt.mpr high]
  have plain : bit.getLsbD index = false := by
    cases set : bit.getLsbD index with
    | false => rfl
    | true => have := marked set; omega
  have middle : 9 ≤ index ∧ index < 56 := by omega
  simp [plain, middle]

theorem HostOffset.mod_eq : host % 2 ^ 64 = host := Nat.mod_eq_of_lt (valid.small.trans (by decide))

theorem hostOf_ofNat : hostOf (BitVec.ofNat 64 host) = host := by
  have plain := ofNat_or_copied_and_mask valid 0#64 fun index set => by simp at set
  rw [BitVec.or_zero] at plain
  rw [hostOf, plain, BitVec.toNat_ofNat, valid.mod_eq]

theorem hostOf_owned : hostOf (owned host) = host := by
  have plain := ofNat_or_copied_and_mask valid copiedBit fun index set => by
    rw [getLsbD_copiedBit] at set
    exact of_decide_eq_true set
  rw [hostOf, owned, plain, BitVec.toNat_ofNat, valid.mod_eq]

end

theorem and_twoPow_ne_zero (entry : Entry) (position : Nat) (inside : position < 64) :
    entry &&& twoPow 64 position ≠ 0 ↔ entry.getLsbD position = true := by
  constructor
  · intro differs
    by_contra clear
    apply differs
    apply eq_of_getLsbD_eq
    intro index small
    rw [getLsbD_and, BitVec.getLsbD_twoPow]
    by_cases same : position = index
    · subst same
      simp [Bool.eq_false_iff.mpr clear]
    · simp [same]
  intro set zero
  have bit : (entry &&& twoPow 64 position).getLsbD position = false := by
    rw [zero]
    exact BitVec.getLsbD_zero
  rw [getLsbD_and, BitVec.getLsbD_twoPow, set] at bit
  simp [inside] at bit

theorem isCompressed_iff {entry : Entry} : isCompressed entry = true ↔ entry.getLsbD 62 = true := by
  rw [isCompressed, decide_eq_true_eq, show compressedBit = twoPow 64 62 by decide]
  exact and_twoPow_ne_zero entry 62 (by decide)

theorem isZero_iff {entry : Entry} : isZero entry = true ↔ entry.getLsbD 0 = true := by
  rw [isZero, decide_eq_true_eq, show zeroBit = twoPow 64 0 by decide]
  exact and_twoPow_ne_zero entry 0 (by decide)

theorem getLsbD_owned (host : Nat) (index : Fin 64) :
    (owned host).getLsbD index = (host.testBit index || decide (index.val = 63)) := by
  rw [owned, getLsbD_or, getLsbD_copiedBit, BitVec.getLsbD_ofNat]
  simp [index.isLt]

theorem isCompressed_owned (valid : HostOffset host) : isCompressed (owned host) = false := by
  rw [Bool.eq_false_iff, Ne, isCompressed_iff]
  have bit := getLsbD_owned host ⟨62, by decide⟩
  dsimp only at bit
  rw [bit, valid.testBit_of_high (by decide)]
  decide

theorem isZero_owned (valid : HostOffset host) : isZero (owned host) = false := by
  rw [Bool.eq_false_iff, Ne, isZero_iff]
  have bit := getLsbD_owned host ⟨0, by decide⟩
  dsimp only at bit
  rw [bit, valid.testBit_of_low (by decide)]
  decide

section

variable (entry : Entry)

section

variable (copied : Bool)

theorem getLsbD_withCopied (index : Fin 64) :
    (withCopied entry copied).getLsbD index = if index.val = 63 then copied else entry.getLsbD index := by
  have bit := getLsbD_copiedBit index
  have chosen : (if copied then copiedBit else 0).getLsbD index = (copied && decide (index.val = 63)) := by
    cases copied with
    | false => exact BitVec.getLsbD_zero
    | true => exact bit
  rw [withCopied, getLsbD_or, getLsbD_and, BitVec.getLsbD_not, bit, chosen]
  by_cases last : index.val = 63 <;> simp [last, index.isLt]

@[simp] theorem hostOf_withCopied : hostOf (withCopied entry copied) = hostOf entry := by
  rw [hostOf, hostOf]
  congr 1
  apply eq_of_getLsbD_eq
  intro index inside
  have bit := getLsbD_withCopied entry copied ⟨index, inside⟩
  have mask := getLsbD_offsetMask ⟨index, inside⟩
  dsimp only at bit mask
  rw [getLsbD_and, getLsbD_and, bit, mask]
  split
  · next last => simp [last]
  · rfl

@[simp] theorem isCompressed_withCopied :
    isCompressed (withCopied entry copied) = isCompressed entry := by
  have bit := getLsbD_withCopied entry copied ⟨62, by decide⟩
  simp only [show (62 : Nat) ≠ 63 by decide, if_false] at bit
  rw [Bool.eq_iff_iff, isCompressed_iff, isCompressed_iff, bit]

@[simp] theorem isZero_withCopied :
    isZero (withCopied entry copied) = isZero entry := by
  have bit := getLsbD_withCopied entry copied ⟨0, by decide⟩
  simp only [show (0 : Nat) ≠ 63 by decide, if_false] at bit
  rw [Bool.eq_iff_iff, isZero_iff, isZero_iff, bit]

end

theorem or_copiedBit : entry ||| copiedBit = withCopied entry true := by
  apply eq_of_getLsbD_eq
  intro index inside
  have bit := getLsbD_withCopied entry true ⟨index, inside⟩
  have copied := getLsbD_copiedBit ⟨index, inside⟩
  dsimp only at bit copied
  rw [getLsbD_or, copied, bit]
  split
  · next last => simp [last]
  · next other => simp [other]

end

@[simp] theorem hostOf_zero : hostOf 0 = 0 := by decide
@[simp] theorem isCompressed_zero : isCompressed 0 = false := by decide
variable {table : List UInt8} {index other : Nat} {word : Entry}

section

variable (inside : 8 * index + 8 ≤ table.length)
include inside

theorem length_setWord : (setWord table index word).length = table.length := length_overwrite (by simpa using inside)

theorem wordAt_setWord_self : wordAt (setWord table index word) index = word := by
  have room : 8 * index + (toBigEndian 8 word.toNat).length ≤ table.length := by simpa using inside
  have patched := window_overwrite_self room
  rw [length_toBigEndian] at patched
  rw [wordAt, setWord, patched, bigEndian_toBigEndian (by have := word.isLt; omega), BitVec.ofNat_toNat]
  simp

theorem wordAt_setWord_of_ne (differ : other ≠ index) :
    wordAt (setWord table index word) other = wordAt table other := by
  rw [wordAt, setWord, window_overwrite_of_disjoint (by simpa using inside) (by simp only [length_toBigEndian]; omega)]
  rfl

end

theorem wordAt_zeros (length index : Nat) : wordAt (replicate length 0) index = 0 := by
  rw [wordAt, window, drop_replicate, take_replicate, bigEndian_zeros]
  rfl

@[simp] theorem length_bytesToWords (bytes : List UInt8) : (bytesToWords bytes).length = bytes.length / 8 := by
  simp [bytesToWords]

theorem getElem?_bytesToWords (bytes : List UInt8) (index : Nat) :
    (bytesToWords bytes)[index]? = if index < bytes.length / 8 then some (wordAt bytes index) else none := by
  simp only [bytesToWords, getElem?_map]
  split
  · next inside => simp [inside]
  · next outside => simp [outside]

theorem bytesToWords_setWord (inside : 8 * index + 8 ≤ table.length) :
    bytesToWords (setWord table index word) = (bytesToWords table).set index word := by
  apply ext_getElem?
  intro position
  rw [getElem?_bytesToWords, length_setWord inside, getElem?_set, getElem?_bytesToWords, length_bytesToWords]
  by_cases same : index = position
  · subst same
    rw [if_pos rfl, if_pos (by omega), if_pos (by omega), wordAt_setWord_self inside]
  · rw [if_neg same, wordAt_setWord_of_ne inside (Ne.symm same)]

@[simp] theorem length_wordsToBytes (words : List Entry) : (wordsToBytes words).length = words.length * 8 := by
  induction words with
  | nil => rfl
  | cons word words ih =>
    rw [wordsToBytes, flatMap_cons, length_append, length_toBigEndian, length_cons]
    have rest : (words.flatMap fun word => toBigEndian 8 word.toNat).length = words.length * 8 := ih
    omega

end Vmlab.Disk.Qcow2
