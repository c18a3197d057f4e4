import Mathlib

/-!
# Sorted maps

A finite map kept as its entries in increasing order of the keys.
-/

namespace Vmlab.Library

open List

instance lawfulBEqText : LawfulBEq (List Char) := inferInstance

structure SortedMap (κ ν : Type) [LinearOrder κ] where
  entries : List (κ × ν)
  sorted : entries.Pairwise fun left right => left.1 < right.1

namespace SortedMap

variable {κ ν : Type} [LinearOrder κ]

instance [DecidableEq ν] : DecidableEq (SortedMap κ ν) := fun left right =>
  decidable_of_iff (left.entries = right.entries) (by cases left; cases right; simp)

instance : Membership (κ × ν) (SortedMap κ ν) := ⟨fun map entry => entry ∈ map.entries⟩

def empty : SortedMap κ ν := ⟨[], .nil⟩

def size (map : SortedMap κ ν) : Nat := map.entries.length

def get? (map : SortedMap κ ν) (key : κ) : Option ν := (map.entries.find? fun entry => entry.1 = key).map Prod.snd

def filter (keep : κ × ν → Bool) (map : SortedMap κ ν) : SortedMap κ ν :=
  ⟨map.entries.filter keep, map.sorted.filter keep⟩

def erase (map : SortedMap κ ν) (key : κ) : SortedMap κ ν := map.filter fun entry => !decide (entry.1 = key)

def insert (map : SortedMap κ ν) (key : κ) (value : ν) : SortedMap κ ν where
  entries := (map.entries.filter fun entry => entry.1 < key) ++
    (key, value) :: map.entries.filter fun entry => key < entry.1
  sorted := by
    refine List.pairwise_append.mpr ⟨map.sorted.filter _, ?_, ?_⟩
    · refine List.pairwise_cons.mpr ⟨?_, map.sorted.filter _⟩
      intro entry member
      exact of_decide_eq_true (List.mem_filter.mp member).2
    intro left before right after
    have low : left.1 < key := of_decide_eq_true (List.mem_filter.mp before).2
    rcases List.mem_cons.mp after with rfl | later
    · exact low
    · exact low.trans (of_decide_eq_true (List.mem_filter.mp later).2)

def keys (map : SortedMap κ ν) : List κ := map.entries.map Prod.fst

def ofKeys (keys : List κ) : SortedMap κ Unit := keys.foldl (fun set key => set.insert key ()) empty

def first? (map : SortedMap κ ν) : Option (κ × ν) := map.entries.head?

def total (measure : ν → Nat) (map : SortedMap κ ν) : Nat := (map.entries.map fun entry => measure entry.2).sum

variable {entry : κ × ν} {map : SortedMap κ ν}

theorem mem_def : entry ∈ map ↔ entry ∈ map.entries := Iff.rfl

@[simp] theorem not_mem_empty : entry ∉ (empty : SortedMap κ ν) := by
  simp [mem_def, empty]

@[simp] theorem mem_filter {keep : κ × ν → Bool} {map : SortedMap κ ν} {entry : κ × ν} :
    entry ∈ map.filter keep ↔ entry ∈ map ∧ keep entry := by
  simp [mem_def, filter]

@[simp] theorem mem_erase {map : SortedMap κ ν} {key : κ} {entry : κ × ν} :
    entry ∈ map.erase key ↔ entry ∈ map ∧ entry.1 ≠ key := by
  simp [erase]

@[simp] theorem mem_insert {map : SortedMap κ ν} {key : κ} {value : ν} {entry : κ × ν} :
    entry ∈ map.insert key value ↔ entry = (key, value) ∨ (entry ∈ map ∧ entry.1 ≠ key) := by
  simp only [mem_def, insert, mem_append, mem_cons, List.mem_filter, decide_eq_true_eq]
  constructor
  · rintro (⟨member, low⟩ | same | ⟨member, high⟩)
    · exact .inr ⟨member, ne_of_lt low⟩
    · exact .inl same
    · exact .inr ⟨member, ne_of_gt high⟩
  rintro (same | ⟨member, differ⟩)
  · exact .inr (.inl same)
  rcases lt_or_gt_of_ne differ with low | high
  · exact .inl ⟨member, low⟩
  · exact .inr (.inr ⟨member, high⟩)

theorem nodup_keys (map : SortedMap κ ν) : (map.entries.map Prod.fst).Nodup := by
  apply List.Pairwise.nodup (r := (· < ·))
  exact pairwise_map.mpr map.sorted

variable {key : κ}

theorem mem_unique {left right : ν} (first : (key, left) ∈ map) (second : (key, right) ∈ map) : left = right :=
  congrArg Prod.snd (inj_on_of_nodup_map map.nodup_keys first second rfl)

variable {value : ν}

theorem get?_eq_some : map.get? key = some value ↔ (key, value) ∈ map := by
  simp only [get?, Option.map_eq_some_iff]
  constructor
  · rintro ⟨⟨found, value⟩, search, rfl⟩
    have same : found = key := by simpa using find?_some search
    subst same
    exact mem_of_find?_eq_some search
  intro member
  cases search : map.entries.find? fun entry => entry.1 = key with
  | none => simpa using find?_eq_none.mp search (key, value) member
  | some entry =>
    have same : entry.1 = key := by simpa using find?_some search
    have found : (key, entry.2) ∈ map := by
      rw [← same]
      exact mem_of_find?_eq_some search
    exact ⟨entry, rfl, mem_unique found member⟩

theorem get?_eq_none : map.get? key = none ↔ ∀ entry ∈ map, entry.1 ≠ key := by
  simp [get?, find?_eq_none, mem_def]

theorem get?_insert (map : SortedMap κ ν) (key other : κ) (value : ν) :
    (map.insert key value).get? other = if other = key then some value else map.get? other := by
  ext found
  rw [get?_eq_some, mem_insert]
  split
  · next same => simp [same, eq_comm]
  · next differ => simp [differ, get?_eq_some]

theorem get?_erase (map : SortedMap κ ν) (key other : κ) :
    (map.erase key).get? other = if other = key then none else map.get? other := by
  ext found
  rw [get?_eq_some, mem_erase]
  split
  · next same => simp [same]
  · next differ => simp [differ, get?_eq_some]

theorem get?_foldl_erase (keys : List κ) (map : SortedMap κ ν) (key : κ) :
    (keys.foldl erase map).get? key = if key ∈ keys then none else map.get? key := by
  induction keys generalizing map with
  | nil => simp
  | cons first keys ih =>
    rw [foldl_cons, ih, get?_erase]
    by_cases same : key = first
    · simp [same]
    · simp [same]

theorem mem_keys : key ∈ map.keys ↔ ∃ value, map.get? key = some value := by
  simp [keys, get?_eq_some, mem_def]

theorem keys_sorted (map : SortedMap κ ν) : map.keys.Pairwise (· < ·) := pairwise_map.mpr map.sorted

theorem mem_keys_insertAll {list : List κ} {set : SortedMap κ Unit} :
    key ∈ (list.foldl (fun set key => set.insert key ()) set).keys ↔ key ∈ set.keys ∨ key ∈ list := by
  induction list generalizing set with
  | nil => simp
  | cons head rest ih =>
    rw [foldl_cons, ih]
    by_cases same : key = head
    · simp [mem_keys, get?_insert, same]
    · simp [mem_keys, get?_insert, same]

theorem mem_ofKeys {list : List κ} : key ∈ (ofKeys list).keys ↔ key ∈ list := by
  rw [ofKeys, mem_keys_insertAll]
  simp [keys, empty]

theorem first?_mem (found : map.first? = some entry) : entry ∈ map := mem_of_mem_head? found

theorem first?_eq_none (none : map.first? = none) : map = empty := by
  obtain ⟨entries, sorted⟩ := map
  cases head?_eq_none_iff.mp none
  rfl

section

variable (measure : ν → Nat)

@[simp] theorem total_empty : total measure (empty : SortedMap κ ν) = 0 := rfl

theorem total_filter_add (keep : κ × ν → Bool) (map : SortedMap κ ν) :
    (map.filter keep).total measure + (map.filter fun entry => !keep entry).total measure = map.total measure := by
  obtain ⟨entries, sorted⟩ := map
  simp only [total, filter]
  clear sorted
  induction entries with
  | nil => rfl
  | cons entry entries ih =>
    cases kept : keep entry <;> simp [kept] <;> omega

theorem total_erase (member : (key, value) ∈ map) :
    (map.erase key).total measure + measure value = map.total measure := by
  obtain ⟨entries, sorted⟩ := map
  simp only [mem_def, total, erase, filter] at member ⊢
  induction entries with
  | nil => cases member
  | cons entry entries ih =>
    obtain ⟨above, sorted⟩ := pairwise_cons.mp sorted
    rcases mem_cons.mp member with rfl | later
    · have kept : entries.filter (fun entry => !decide (entry.1 = key)) = entries :=
        filter_eq_self.mpr fun other inside => by simpa using ne_of_gt (above other inside)
      simp [kept, Nat.add_comm]
    have differ : entry.1 ≠ key := ne_of_lt (above _ later)
    have rest := ih sorted later
    simp only [filter_cons, differ, decide_false, Bool.not_false, if_true, map_cons, sum_cons]
    omega

theorem erase_eq_self (absent : map.get? key = none) : map.erase key = map := by
  obtain ⟨entries, sorted⟩ := map
  have kept := get?_eq_none.mp absent
  simp only [erase, filter, mk.injEq]
  exact filter_eq_self.mpr fun entry member => by simpa using kept entry member

theorem total_insert (map : SortedMap κ ν) (key : κ) (value : ν) :
    (map.insert key value).total measure = (map.erase key).total measure + measure value := by
  obtain ⟨entries, sorted⟩ := map
  simp only [total, insert, erase, filter, map_append, sum_append, map_cons, sum_cons]
  clear sorted
  induction entries with
  | nil => simp
  | cons entry entries ih =>
    rcases lt_trichotomy entry.1 key with low | same | high
    · simp [low, not_lt_of_gt low, ne_of_lt low]
      omega
    · simp only [filter_cons, same]
      simpa using ih
    · simp [high, not_lt_of_gt high, ne_of_gt high]
      omega

end

theorem size_erase_lt (member : (key, value) ∈ map) : (map.erase key).size < map.size := by
  refine length_filter_lt_length_iff_exists.mpr ⟨(key, value), member, ?_⟩
  simp

variable {β : Type}

theorem filterMap_around {read : κ × ν → Option β} {entries : List (κ × ν)}
    (sorted : entries.Pairwise fun left right => left.1 < right.1) (skips : ∀ entry ∈ entries, entry.1 = key → read entry = none) :
    (entries.filter fun entry => entry.1 < key).filterMap read ++
      (entries.filter fun entry => key < entry.1).filterMap read = entries.filterMap read := by
  induction entries with
  | nil => rfl
  | cons entry entries ih =>
    have rest := ih sorted.of_cons fun other member => skips other (mem_cons_of_mem _ member)
    have later : ∀ {other}, other ∈ entries → entry.1 < other.1 := rel_of_pairwise_cons sorted
    rcases lt_trichotomy entry.1 key with low | same | high
    · rw [filter_cons_of_pos (by simpa using low), filter_cons_of_neg (by simpa using low.le),
        filterMap_cons, filterMap_cons]
      cases read entry with
      | none => exact rest
      | some value => exact congrArg (List.cons value) rest
    · rw [filter_cons_of_neg (by simp [same]), filter_cons_of_neg (by simp [same]), filterMap_cons,
        skips entry mem_cons_self same]
      exact rest
    have none : (entries.filter fun entry => entry.1 < key) = [] := by
      refine filter_eq_nil_iff.mpr fun other member => ?_
      simpa using (high.trans (later member)).le
    have all : (entries.filter fun entry => key < entry.1) = entries := by
      refine filter_eq_self.mpr fun other member => ?_
      simpa using high.trans (later member)
    rw [filter_cons_of_neg (by simpa using high.le), filter_cons_of_pos (by simpa using high), none, all]
    rfl

theorem filterMap_keys_insert (map : SortedMap κ ν) (key : κ) (value : ν) {read : κ → Option β}
    (skips : read key = none) : (map.insert key value).keys.filterMap read = map.keys.filterMap read := by
  have around := @filterMap_around _ _ _ key _ (fun entry => read entry.1) _ map.sorted fun entry _ same => same ▸ skips
  simp only [keys, insert, filterMap_map, filterMap_append, filterMap_cons, Function.comp_def, skips]
  exact around

theorem filterMap_keys_erase (map : SortedMap κ ν) {read : κ → Option β}
    (skips : read key = none) : (map.erase key).keys.filterMap read = map.keys.filterMap read := by
  simp only [keys, erase, filter, filterMap_map, filterMap_filter]
  refine filterMap_congr fun entry _ => ?_
  by_cases same : entry.1 = key
  · simp [same, skips]
  · simp [same]

theorem ext_get? {left right : SortedMap κ ν} (same : ∀ key, left.get? key = right.get? key) : left = right := by
  have nodup (map : SortedMap κ ν) : map.entries.Nodup := map.nodup_keys.of_map _
  have members : ∀ entry, entry ∈ left.entries ↔ entry ∈ right.entries := by
    rintro ⟨key, value⟩
    rw [← mem_def, ← mem_def, ← get?_eq_some, ← get?_eq_some, same]
  have entries : left.entries = right.entries :=
    ((perm_ext_iff_of_nodup (nodup left) (nodup right)).mpr members).eq_of_pairwise
      (fun _ _ _ _ low high => absurd low high.asymm) left.sorted right.sorted
  cases left
  cases right
  cases entries
  rfl

theorem insert_eq_self (present : map.get? key = some value) : map.insert key value = map := by
  refine ext_get? fun other => ?_
  rw [get?_insert]
  split
  · next same => rw [same, present]
  · rfl

end SortedMap

end Vmlab.Library
