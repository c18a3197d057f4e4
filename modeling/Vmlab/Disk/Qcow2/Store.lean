import Vmlab.Library.SortedMap
import Vmlab.Disk.File
import Vmlab.Library.Program

/-!
# The table cache and the cluster store

`TableCache` in `qcow2/mod.rs`: L2 tables keyed by host offset, refcount blocks by their index. The least recently
used table goes first, and a dirty one is handed to the caller to be written. The store over it reads and writes the
image file and the entries of the L2 tables and refcount blocks.
-/

namespace Vmlab.Disk.Qcow2

open Library

structure TableCache where
  map : SortedMap Nat (List UInt8 × Bool)
  order : List Nat
  cap : Nat

namespace TableCache

def new (cap : Nat) : TableCache := { map := .empty, order := [], cap := max cap 1 }

def touch (cache : TableCache) (key : Nat) : TableCache :=
  { cache with order := cache.order.filter (· ≠ key) ++ [key] }

def find? (cache : TableCache) (key : Nat) : Option (List UInt8 × Bool) := cache.map.get? key

def makeRoom (cap : Nat) : List Nat → SortedMap Nat (List UInt8 × Bool) →
    List Nat × SortedMap Nat (List UInt8 × Bool) × List (Nat × List UInt8)
  | [], map => ([], map, [])
  | key :: order, map =>
    if map.size < cap then (key :: order, map, [])
    else
      let (rest, left, evicted) := makeRoom cap order (map.erase key)
      match map.get? key with
      | some (table, true) => (rest, left, (key, table) :: evicted)
      | _ => (rest, left, evicted)

section

variable (cache : TableCache)

def put (key : Nat) (table : List UInt8) (dirty : Bool) : TableCache × List (Nat × List UInt8) :=
  if (cache.find? key).isSome then
    ({ cache.touch key with map := cache.map.insert key (table, dirty) }, [])
  else
    let (order, map, evicted) := makeRoom cache.cap cache.order cache.map
    let cache := { cache with order, map }
    ({ cache.touch key with map := map.insert key (table, dirty) }, evicted)

def update (key : Nat) (change : List UInt8 → List UInt8) : TableCache :=
  match cache.find? key with
  | some (table, _) => { cache with map := cache.map.insert key (change table, true) }
  | none => cache

def remove (key : Nat) : TableCache :=
  { cache with map := cache.map.erase key, order := cache.order.filter (· ≠ key) }

end

/-! ### What the cache holds after each operation -/

open SortedMap (get?_erase)

variable {after : SortedMap Nat (List UInt8 × Bool)} {evicted : List (Nat × List UInt8)} {key : Nat}

structure Evicts (before after : SortedMap Nat (List UInt8 × Bool)) (evicted : List (Nat × List UInt8)) : Prop where
  kept : ∀ key, after.get? key = before.get? key ∨
    after.get? key = none ∧ ∀ table, before.get? key = some (table, true) → (key, table) ∈ evicted
  listed : ∀ key table, (key, table) ∈ evicted → before.get? key = some (table, true) ∧ after.get? key = none

structure Settles (before after : SortedMap Nat (List UInt8 × Bool)) (tables : List (Nat × List UInt8)) : Prop where
  held : ∀ key table dirty, after.get? key = some (table, dirty) →
    ∃ wasDirty, before.get? key = some (table, wasDirty) ∧ (dirty = false → wasDirty = true → (key, table) ∈ tables)
  gone : ∀ key table, after.get? key = none → before.get? key = some (table, true) → (key, table) ∈ tables
  listed : ∀ key table, (key, table) ∈ tables → before.get? key = some (table, true)

theorem Settles.absent {before after : SortedMap Nat (List UInt8 × Bool)} {tables : List (Nat × List UInt8)}
    (settles : Settles before after tables) {key : Nat} (absent : before.get? key = none) : after.get? key = none := by
  cases found : after.get? key with
  | none => rfl
  | some entry =>
    obtain ⟨_, held, _⟩ := settles.held key entry.1 entry.2 found
    rw [absent] at held
    cases held

theorem Evicts.settles {before : SortedMap Nat (List UInt8 × Bool)}
    (evicts : Evicts before after evicted) : Settles before after evicted where
  held key table dirty found := by
    rcases evicts.kept key with same | ⟨gone, _⟩
    · refine ⟨dirty, same ▸ found, fun clean isDirty => ?_⟩
      rw [clean] at isDirty
      cases isDirty
    · rw [gone] at found
      cases found
  gone key table gone wasDirty := by
    rcases evicts.kept key with same | ⟨_, listed⟩
    · rw [same, wasDirty] at gone
      cases gone
    · exact listed table wasDirty
  listed key table member := (evicts.listed key table member).1

section

variable {map : SortedMap Nat (List UInt8 × Bool)} (rest : Evicts (map.erase key) after evicted)
include rest

private theorem Evicts.erase (clean : ∀ table, map.get? key ≠ some (table, true)) : Evicts map after evicted := by
  constructor
  · intro other
    have kept := rest.kept other
    rw [get?_erase] at kept
    split at kept
    · next same =>
      subst same
      refine .inr ⟨?_, fun table found => absurd found (clean table)⟩
      rcases kept with gone | ⟨gone, _⟩ <;> exact gone
    · exact kept
  intro other table member
  obtain ⟨held, gone⟩ := rest.listed other table member
  rw [get?_erase] at held
  split at held
  · cases held
  · exact ⟨held, gone⟩

theorem Evicts.erase_dirty {table : List UInt8} (dirty : map.get? key = some (table, true)) :
    Evicts map after ((key, table) :: evicted) := by
  have gone : after.get? key = none := by
    have kept := rest.kept key
    rw [get?_erase, if_pos rfl] at kept
    rcases kept with gone | ⟨gone, _⟩ <;> exact gone
  constructor
  · intro other
    have kept := rest.kept other
    rw [get?_erase] at kept
    split at kept
    · next same =>
      subst same
      refine .inr ⟨gone, fun found held => ?_⟩
      rw [dirty] at held
      cases held
      exact List.mem_cons_self
    rcases kept with same | ⟨gone, listed⟩
    · exact .inl same
    · exact .inr ⟨gone, fun found held => List.mem_cons_of_mem _ (listed found held)⟩
  intro other found member
  rcases List.mem_cons.mp member with same | later
  · cases same
    exact ⟨dirty, gone⟩
  obtain ⟨held, gone⟩ := rest.listed other found later
  rw [get?_erase] at held
  split at held
  · cases held
  · exact ⟨held, gone⟩

end

theorem makeRoom_evicts (cap : Nat) (order : List Nat) (map : SortedMap Nat (List UInt8 × Bool)) :
    Evicts map (makeRoom cap order map).2.1 (makeRoom cap order map).2.2 := by
  have unchanged (map : SortedMap Nat (List UInt8 × Bool)) : Evicts map map [] :=
    ⟨fun _ => .inl rfl, fun _ _ member => nomatch member⟩
  induction order generalizing map with
  | nil => exact unchanged map
  | cons key order ih =>
    unfold makeRoom
    split
    · exact unchanged map
    have rest := ih (map.erase key)
    dsimp only
    split
    · next table dirty => exact rest.erase_dirty dirty
    · next clean => exact rest.erase fun table held => clean table held

section

variable (cache : TableCache)

theorem find?_touch (key other : Nat) : (cache.touch key).find? other = cache.find? other := rfl

theorem find?_remove (key other : Nat) : (cache.remove key).find? other = if other = key then none else cache.find? other :=
  get?_erase ..

theorem find?_update (key other : Nat) (change : List UInt8 → List UInt8) :
    (cache.update key change).find? other =
      if other = key then (cache.find? key).map fun entry => (change entry.1, true) else cache.find? other := by
  unfold update
  cases held : cache.find? key with
  | none =>
    by_cases same : other = key
    · rw [if_pos same, same]
      exact held
    · rw [if_neg same]
  | some entry => exact SortedMap.get?_insert ..

end

theorem put_settles {cache : TableCache} (table : List UInt8) (dirty : Bool) (absent : cache.find? key = none) :
    ∃ left, Settles cache.map left (cache.put key table dirty).2 ∧
      ∀ other, (cache.put key table dirty).1.find? other =
        if other = key then some (table, dirty) else left.get? other := by
  refine ⟨(makeRoom cache.cap cache.order cache.map).2.1, ?_, ?_⟩
  · unfold put
    rw [absent]
    exact (makeRoom_evicts ..).settles
  intro other
  unfold put
  rw [absent]
  exact SortedMap.get?_insert ..

end TableCache

end Vmlab.Disk.Qcow2

/-! ### The cluster store: table entries are 64-bit words, offsets and cluster numbers natural numbers -/

namespace Vmlab.Disk

inductive Unsupported where
  | readOverflows
  | readBeyondEnd (offset count : Nat)
  | writeOverflows
  | writeBeyondEnd (offset count : Nat)
  | pastL1Coverage
  | refcountOverflow (cluster : Nat)
  | backingNameTooLong

inductive Malformed where
  | refcountTableIndex (index : Nat)
  | refblockNotAllocated (index : Nat)
  | refcountUnderflow (cluster : Nat)
  | deflate

/-- `Error` of the crate. A panic and a computation that was given too few
steps count as failures too. -/
inductive DiskError where
  | io
  | format (reason : Malformed)
  | unsupported (message : Unsupported)
  | readOnly
  | panic
  | outOfFuel

structure BackingImage where
  size : Nat
  readAt : Nat → Nat → Except DiskError (List UInt8)

structure BackingRef where
  name : List UInt8
  format : Option (List UInt8)

/-- What an image needs from outside: the longest file, the inflated bytes of
a raw deflate stream up to a length, the text that `from_utf8_lossy` makes of
bytes, and how a backing file is opened. -/
structure Host where
  maxFileLen : Nat
  inflate : List UInt8 → Nat → Option (List UInt8)
  decode : List UInt8 → List UInt8
  openBacking : BackingRef → Except DiskError BackingImage

namespace Qcow2

open Library

abbrev Entry := BitVec 64

def offsetMask : Entry := 0x00fffffffffffe00
def compressedBit : Entry := 0x4000000000000000
def copiedBit : Entry := 0x8000000000000000
def zeroBit : Entry := 1

def hostOf (entry : Entry) : Nat := (entry &&& offsetMask).toNat

def isCopied (entry : Entry) : Bool := entry &&& copiedBit ≠ 0
def isCompressed (entry : Entry) : Bool := entry &&& compressedBit ≠ 0
def isZero (entry : Entry) : Bool := entry &&& zeroBit ≠ 0

/-- A pointer to a cluster that nothing else refers to. -/
def owned (host : Nat) : Entry := BitVec.ofNat 64 host ||| copiedBit

def withCopied (entry : Entry) (copied : Bool) : Entry :=
  (entry &&& ~~~copiedBit) ||| (if copied then copiedBit else 0)

def wordAt (table : List UInt8) (index : Nat) : Entry := BitVec.ofNat 64 (bigEndian (window table (8 * index) 8))

def setWord (table : List UInt8) (index : Nat) (word : Entry) : List UInt8 :=
  overwrite table (8 * index) (toBigEndian 8 word.toNat)

def wordsToBytes (words : List Entry) : List UInt8 := words.flatMap fun word => toBigEndian 8 word.toNat

def bytesToWords (bytes : List UInt8) : List Entry := (List.range (bytes.length / 8)).map (wordAt bytes)

def divCeil (dividend divisor : Nat) : Nat := (dividend + divisor - 1) / divisor

/-- The parameters of an image that stay as they are while it is open. -/
structure Geometry where
  host : Host
  readOnly : Bool
  version : Nat
  clusterBits : Nat
  refcountBits : Nat

namespace Geometry

variable (geometry : Geometry)

def clusterSize : Nat := 2 ^ geometry.clusterBits

def l2Entries : Nat := geometry.clusterSize / 8

def l2Span : Nat := geometry.l2Entries * geometry.clusterSize

def l2IndexBits : Nat := geometry.clusterBits + (geometry.clusterBits - 3)

def l1IndexOf (guestOffset : Nat) : Nat := guestOffset >>> geometry.l2IndexBits

def l2IndexOf (guestOffset : Nat) : Nat :=
  (guestOffset >>> geometry.clusterBits) % geometry.l2Entries

def refblockEntries : Nat := geometry.clusterSize * 8 / geometry.refcountBits

def refcountMax : Nat := 2 ^ (geometry.refcountBits % 64) - 1

end Geometry

structure FreeClusters where
  set : SortedMap Nat Unit
  scanNext : Nat

structure Store where
  file : File
  refcountTableOffset : Nat
  refcountTableClusters : Nat
  refcountTable : List Entry
  l2Cache : TableCache
  refblockCache : TableCache
  free : FreeClusters
  headerDirty : Bool
  refcountTableDirty : Bool

abbrev StoreM := EStateM DiskError Store

variable (geometry : Geometry)

def readFile (offset count : Nat) : StoreM (List UInt8) := do
  match (← get).file.readExactAt offset count with
  | some bytes => pure bytes
  | none => throw .io

def writeFile (offset : Nat) (data : List UInt8) : StoreM Unit := do
  if geometry.readOnly then throw .readOnly
  else
    match (← get).file.writeAllAt geometry.host.maxFileLen offset data with
    | some file => modify fun store => { store with file }
    | none => throw .io

def writeTables (home : Nat → StoreM Nat) (tables : List (Nat × List UInt8)) : StoreM Unit :=
  tables.forM fun table => do
    let host ← home table.1
    writeFile geometry host table.2

def loadL2 (hostOffset : Nat) : StoreM Unit := do
  let store ← get
  if (store.l2Cache.find? hostOffset).isSome then
    modify fun store => { store with l2Cache := store.l2Cache.touch hostOffset }
  else
    let table ← readFile hostOffset geometry.clusterSize
    let (l2Cache, evicted) := store.l2Cache.put hostOffset table false
    modify fun store => { store with l2Cache }
    writeTables geometry pure evicted

def readClusterViaCache (host : Nat) : StoreM (List UInt8) := do
  loadL2 geometry host
  match (← get).l2Cache.find? host with
  | some (table, _) => do
      modify fun store => { store with l2Cache := store.l2Cache.touch host }
      pure table
  | none => throw .panic

def l2Entry (l2Host index : Nat) : StoreM Entry := do
  let table ← readClusterViaCache geometry l2Host
  pure (wordAt table index)

def setL2Entry (l2Host index : Nat) (value : Entry) : StoreM Unit := do
  loadL2 geometry l2Host
  modify fun store =>
    { store with l2Cache := store.l2Cache.update l2Host fun table => setWord table index value }

def Store.blockHost (store : Store) (tableIndex : Nat) : Nat := hostOf (store.refcountTable.getD tableIndex 0)

def refblockHost (tableIndex : Nat) : StoreM Nat := do
  let store ← get
  if store.refcountTable.length ≤ tableIndex then throw (.format (.refcountTableIndex tableIndex))
  else if store.blockHost tableIndex = 0 then throw (.format (.refblockNotAllocated tableIndex))
  else pure (store.blockHost tableIndex)

end Qcow2

end Vmlab.Disk
