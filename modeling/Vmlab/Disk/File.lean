import Vmlab.Library.Bytes

/-!
# Host files

The file behind a disk image: positioned reads and writes that are all or
nothing, zero bytes where a write leaves a gap, and a largest length that the
host supports.
-/

namespace Vmlab.Disk

structure File where
  byteAt : Nat → UInt8
  length : Nat
  beyond : ∀ position, length ≤ position → byteAt position = 0

namespace File

def zeros (length : Nat) : File := ⟨fun _ => 0, length, fun _ _ => rfl⟩

section

variable (file : File)

/-- The `count` bytes from `offset`, zeros past the end. -/
def read (offset count : Nat) : List UInt8 :=
  (List.range count).map fun index => file.byteAt (offset + index)

def readExactAt (offset count : Nat) : Option (List UInt8) :=
  if count = 0 then some []
  else if offset + count ≤ file.length then some (file.read offset count)
  else none

def patch (offset : Nat) (data : List UInt8) : File where
  byteAt position :=
    if offset ≤ position ∧ position < offset + data.length then data.getD (position - offset) 0
    else file.byteAt position
  length := max file.length (offset + data.length)
  beyond position past := by
    have outside : ¬(offset ≤ position ∧ position < offset + data.length) := by omega
    rw [if_neg outside]
    exact file.beyond position (by omega)

def writeAllAt (limit offset : Nat) (data : List UInt8) : Option File :=
  if data = [] then some file
  else if limit < offset + data.length then none
  else some (file.patch offset data)

end

/-! ### What reads see after writes -/

open Library List

variable {file : File} {offset count : Nat} {data : List UInt8}

@[simp] theorem length_read (file : File) (offset count : Nat) : (file.read offset count).length = count := by
  simp [read]

theorem getElem?_read (file : File) (offset count index : Nat) :
    (file.read offset count)[index]? = if index < count then some (file.byteAt (offset + index)) else none := by
  simp only [read, getElem?_map]
  split
  · next inside => simp [inside]
  · next outside => simp [outside]

theorem getD_read {index : Nat} (inside : index < count) :
    (file.read offset count).getD index 0 = file.byteAt (offset + index) := by
  rw [getD_eq_getElem?_getD, getElem?_read, if_pos inside]
  rfl

theorem read_congr {other : File} {position : Nat}
    (same : ∀ index, index < count → other.byteAt (position + index) = file.byteAt (offset + index)) :
    other.read position count = file.read offset count := by
  apply map_congr_left
  intro index member
  exact same index (mem_range.mp member)

theorem read_zeros (length offset count : Nat) : (zeros length).read offset count = replicate count 0 :=
  eq_replicate_iff.mpr ⟨length_read .., fun byte member => by
    obtain ⟨index, _, rfl⟩ := mem_map.mp member
    rfl⟩

theorem window_read {start length : Nat} (inside : start + length ≤ count) :
    window (file.read offset count) start length = file.read (offset + start) length := by
  apply ext_getElem?
  intro index
  simp only [window, getElem?_take, getElem?_drop, getElem?_read]
  split
  · next short => rw [if_pos (by omega), Nat.add_assoc]
  · rfl

theorem readExactAt_eq_some {bytes : List UInt8} : file.readExactAt offset count = some bytes ↔
      bytes = file.read offset count ∧ (count = 0 ∨ offset + count ≤ file.length) := by
  unfold readExactAt
  split
  · next empty =>
    subst empty
    simp [read, eq_comm]
  · next some =>
    split
    · next inside => simp [inside, eq_comm]
    · next outside => simp [outside, some]

theorem byteAt_patch (file : File) (offset : Nat) (data : List UInt8) (position : Nat) :
    (file.patch offset data).byteAt position =
      if offset ≤ position ∧ position < offset + data.length then data.getD (position - offset) 0
      else file.byteAt position := rfl

@[simp] theorem length_patch (file : File) (offset : Nat) (data : List UInt8) :
    (file.patch offset data).length = max file.length (offset + data.length) := rfl

theorem byteAt_patch_of_outside {position : Nat} (outside : position < offset ∨ offset + data.length ≤ position) :
    (file.patch offset data).byteAt position = file.byteAt position := by
  rw [byteAt_patch, if_neg (by omega)]

theorem read_patch_self (file : File) (offset : Nat) (data : List UInt8) :
    (file.patch offset data).read offset data.length = data := by
  apply ext_getElem?
  intro index
  rw [getElem?_read]
  split
  · next inside =>
    rw [byteAt_patch, if_pos (by omega), Nat.add_sub_cancel_left, getD_eq_getElem?_getD, getElem?_eq_getElem inside]
    rfl
  · next outside => rw [getElem?_eq_none (by omega)]

theorem read_patch_of_disjoint {start : Nat} (apart : start + count ≤ offset ∨ offset + data.length ≤ start) :
    (file.patch offset data).read start count = file.read start count := by
  apply read_congr
  intro index inside
  exact byteAt_patch_of_outside (by omega)

theorem read_patch_of_inside {start : Nat} (left : start ≤ offset) (right : offset + data.length ≤ start + count) :
    (file.patch offset data).read start count = overwrite (file.read start count) (offset - start) data := by
  have fits : offset - start + data.length ≤ (file.read start count).length := by
    rw [length_read]
    omega
  apply ext_getElem?
  intro index
  rw [getElem?_read]
  by_cases inside : offset - start ≤ index ∧ index < offset - start + data.length
  · rw [getElem?_overwrite_of_mem fits inside.1 inside.2, if_pos (by omega), byteAt_patch,
      if_pos (by omega), getD_eq_getElem?_getD, show start + index - offset = index - (offset - start) by omega,
      getElem?_eq_getElem (by omega)]
    rfl
  rw [getElem?_overwrite_of_not_mem fits (by omega), getElem?_read]
  split
  · rw [byteAt_patch_of_outside (by omega)]
  · rfl

theorem writeAllAt_eq_some {limit : Nat} {written : File} : file.writeAllAt limit offset data = some written ↔
      data = [] ∧ written = file ∨ data ≠ [] ∧ offset + data.length ≤ limit ∧ written = file.patch offset data := by
  unfold writeAllAt
  split
  · next empty => simp [empty, eq_comm]
  · next some =>
    split
    · next tooLong => simp [some]; omega
    · next fits => simp [some, eq_comm]; omega

end File

end Vmlab.Disk
