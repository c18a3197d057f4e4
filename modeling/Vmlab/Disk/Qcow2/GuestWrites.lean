import Vmlab.Disk.Qcow2.GuestClusters

/-!
# Writing to a sound image

One guest cluster after the other, and what the guest reads afterwards.
-/

namespace Vmlab.Disk.Qcow2

open Library List

variable {geometry : Geometry} {image : Image} {region : List Nat} {pinned tabled : Nat → Nat}

variable {guest table : Nat} {after mid : Image}

section

variable {fuel offset : Nat} {data : List UInt8}

theorem stale_iff (guest : Nat) :
    Stale geometry image guest ↔ InPlace geometry image guest ∧ isZero (image.entryOf geometry guest) = true := by
  simp only [Stale, InPlace, and_assoc]

def writeThrough (geometry : Geometry) (fuel offset : Nat) (data : List UInt8) (l2Host : Nat) : DiskM Unit := do
  let inOff := offset % geometry.clusterSize
  let clusterOff := offset - inOff
  let l2Index := geometry.l2IndexOf clusterOff
  let entry ← l2Entry geometry l2Host l2Index
  let inPlace ← ownsCluster geometry entry
  if inPlace then do
    (if isCopied entry then pure () else setL2Entry geometry l2Host l2Index (entry ||| copiedBit))
    writeFile geometry (hostOf entry + inOff) data
  else do
    let base ← (if inOff = 0 ∧ data.length = geometry.clusterSize then
        pure (List.replicate geometry.clusterSize 0)
      else clusterBase geometry entry clusterOff)
    let newHost ← allocCluster geometry fuel
    writeFile geometry newHost (overwrite base inOff data)
    setClusterRefcount geometry fuel (newHost / geometry.clusterSize) 1
    adjustEntry geometry fuel .down entry
    setL2Entry geometry l2Host l2Index (owned newHost)

theorem writeCluster_eq (fuel offset : Nat) (data : List UInt8) : writeCluster geometry fuel offset data =
      l2ForWrite geometry fuel (geometry.l1IndexOf (offset - offset % geometry.clusterSize)) >>=
        writeThrough geometry fuel offset data := rfl

theorem l2Entry_unnoticed (supported : geometry.Supported) (sound : Sound geometry image region pinned tabled)
    (found : TableAt geometry image guest table) :
    Ensures (liftM (l2Entry geometry (table * geometry.clusterSize) (guest % geometry.l2Entries)) : DiskM Entry) image
      fun entry after => after.spare = image.spare ∧ entry = after.entryOf geometry guest ∧
        after.store.file.length = image.store.file.length ∧ Unnoticed geometry image after region pinned tabled := by
  refine (lift_ensures (Coherent.l2Entry_spec sound.ledger.coherent (sound.plain_table found.mem).1 _)).mono ?_
  rintro _ _ ⟨store, rfl, rfl, loaded⟩
  have unnoticed := sound.loads supported found.mem loaded
  exact ⟨Store.spare_congr loaded.table, by rw [unnoticed.entry, found.entryOf], loaded.length, unnoticed⟩

theorem Slot.unnoticed (slot : Slot geometry image guest table)
    (unnoticed : Unnoticed geometry image after region pinned tabled)
    (length : image.store.file.length ≤ after.store.file.length) : Slot geometry after guest table := by
  refine ⟨slot.toTableAt.unnoticed unnoticed length, ?_⟩
  rw [unnoticed.rest]
  exact slot.alone

theorem cluster_position (geometry : Geometry) (offset : Nat) :
    offset / geometry.clusterSize * geometry.clusterSize + offset % geometry.clusterSize = offset :=
  Nat.div_add_mod' offset geometry.clusterSize

theorem cluster_start (geometry : Geometry) (offset : Nat) :
    offset - offset % geometry.clusterSize = offset / geometry.clusterSize * geometry.clusterSize := by
  have := cluster_position geometry offset
  omega

theorem outside_cluster {position : Nat} (away : position < offset ∨ offset + data.length ≤ position) :
    position / geometry.clusterSize ≠ offset / geometry.clusterSize ∨
      position % geometry.clusterSize < offset % geometry.clusterSize ∨
      offset % geometry.clusterSize + data.length ≤ position % geometry.clusterSize := by
  by_cases same : position / geometry.clusterSize = offset / geometry.clusterSize
  · have here := cluster_position geometry position
    have start := cluster_position geometry offset
    rw [same] at here
    omega
  · exact .inl same

theorem EndsWell.of_entry (together : EndsWell geometry image guest)
    (entry : after.entryOf geometry guest = image.entryOf geometry guest) : EndsWell geometry after guest := by
  rw [EndsWell, entry]
  exact together

theorem writeInPlace_spec (supported : geometry.Supported) (sound : Sound geometry image region pinned tabled)
    (slot : Slot geometry image (offset / geometry.clusterSize) table)
    (inPlace : InPlace geometry image (offset / geometry.clusterSize))
    (inside : offset % geometry.clusterSize + data.length ≤ geometry.clusterSize) : Ensures (do
        (if isCopied (image.entryOf geometry (offset / geometry.clusterSize)) then pure ()
          else setL2Entry geometry (table * geometry.clusterSize)
            (offset / geometry.clusterSize % geometry.l2Entries)
            (image.entryOf geometry (offset / geometry.clusterSize) ||| copiedBit))
        writeFile geometry (hostOf (image.entryOf geometry (offset / geometry.clusterSize)) +
          offset % geometry.clusterSize) data : DiskM Unit) image fun _ after =>
      after.spare = image.spare ∧ Written geometry image after offset data := by
  have once := sound.inPlace_pinned supported slot.toTableAt inPlace
  refine .bind (markCopied_spec supported sound slot inPlace) fun _ marked mark => ?_
  have zero : isZero (marked.entryOf geometry (offset / geometry.clusterSize)) =
      isZero (image.entryOf geometry (offset / geometry.clusterSize)) := by
    have source := mark.source 0
    simp only [ReadSource.fromEntry, mark.plain, inPlace.1, mark.host, if_neg inPlace.2.1] at source
    cases new : isZero (marked.entryOf geometry (offset / geometry.clusterSize)) with
    | true =>
      cases old : isZero (image.entryOf geometry (offset / geometry.clusterSize)) with
      | true => rfl
      | false => simp [new, old] at source
    | false =>
      cases old : isZero (image.entryOf geometry (offset / geometry.clusterSize)) with
      | true => simp [new, old] at source
      | false => rfl
  rw [← mark.host]
  refine (patchSlot_spec supported mark.sound mark.slot mark.plain (mark.host ▸ inPlace.2.1) (mark.host ▸ once) inside).mono ?_
  rintro _ after ⟨kept, size, backing, table, entries, away, here⟩
  rw [cluster_position, zero] at here
  refine ⟨Store.spare_congr (table.trans mark.table), ⟨_, _, _, kept⟩, size.trans mark.size, backing.trans mark.backing,
    fun position byte outside shown => ?_,
    fun fine index early => ?_, fun stale index early => ?_, fun other differ => (entries other).trans (mark.entry other differ)⟩
  · exact away position byte (outside_cluster outside) (mark.view position byte shown)
  · rw [here index early, if_neg]
    exact fun isZero => fine ((stale_iff _).mpr ⟨inPlace, isZero⟩)
  · rw [here index early, if_pos stale.2.2.2]

theorem writeNew_spec (standard : geometry.Standard) (sound : Sound geometry image region pinned tabled)
    (slot : Slot geometry image (offset / geometry.clusterSize) table)
    (elsewhere : ¬InPlace geometry image (offset / geometry.clusterSize))
    (together : EndsWell geometry image (offset / geometry.clusterSize))
    (inside : offset % geometry.clusterSize + data.length ≤ geometry.clusterSize) {base : List UInt8}
    (length : base.length = geometry.clusterSize) (merges : ∀ index byte, index < geometry.clusterSize →
    index < offset % geometry.clusterSize ∨ offset % geometry.clusterSize + data.length ≤ index →
    image.view geometry (offset / geometry.clusterSize * geometry.clusterSize + index) = some byte →
    base[index]? = some byte) :
    Spends Image.spare 1 (liftM (replaceCluster geometry fuel (table * geometry.clusterSize)
        (offset / geometry.clusterSize % geometry.l2Entries) (image.entryOf geometry (offset / geometry.clusterSize))
        (overwrite base (offset % geometry.clusterSize) data)) : DiskM Unit) image fun _ after =>
      Written geometry image after offset data := by
  have covers : offset % geometry.clusterSize + data.length ≤ base.length := by omega
  refine (replaceCluster_spec standard sound slot together ((length_overwrite covers).trans length)).mono ?_
  rintro _ after ⟨pinned', replaced⟩
  refine ⟨⟨_, _, _, replaced.sound⟩, replaced.size, replaced.backing, fun position byte outside shown => ?_,
    fun _ index early => ?_, fun stale => absurd ((stale_iff _).mp stale).1 elsewhere, replaced.entry⟩
  · rcases outside_cluster outside with differ | away
    · exact replaced.others position byte differ shown
    by_cases same : position / geometry.clusterSize = offset / geometry.clusterSize
    · have within := Nat.mod_lt position geometry.clusterSize_pos
      have here := cluster_position geometry position
      rw [same] at here
      rw [← here] at shown
      rw [← here, replaced.fresh _ within, getElem?_overwrite covers, if_neg (by omega)]
      exact merges _ byte within away shown
    · exact replaced.others position byte same shown
  have here := cluster_position geometry offset
  have place : offset + index = offset / geometry.clusterSize * geometry.clusterSize +
      (offset % geometry.clusterSize + index) := by omega
  rw [place, replaced.fresh _ (by omega), getElem?_overwrite covers, if_pos (by omega), Nat.add_sub_cancel_left]

theorem Written.before (written : Written geometry mid after offset data)
    (stale : Stale geometry mid (offset / geometry.clusterSize) ↔ Stale geometry image (offset / geometry.clusterSize))
    (view : ∀ position byte, image.view geometry position = some byte → mid.view geometry position = some byte)
    (entry : ∀ other, mid.entryOf geometry other = image.entryOf geometry other)
    (size : mid.size = image.size) (backing : mid.backingImage = image.backingImage) :
    Written geometry image after offset data where
  consistent := written.consistent
  size := written.size.trans size
  backing := written.backing.trans backing
  outside position byte away shown := written.outside position byte away (view position byte shown)
  inside fine := written.inside fun isStale => fine (stale.mp isStale)
  stale isStale := written.stale (stale.mpr isStale)
  entry other differ := (written.entry other differ).trans (entry other)

section

variable (supported : geometry.Supported) (sound : Sound geometry image region pinned tabled)
include supported sound

theorem Sound.stale_congr {tabled' : Nat → Nat} (sound' : Sound geometry after region pinned tabled')
    (entry : after.entryOf geometry guest = image.entryOf geometry guest) :
    Stale geometry after guest ↔ Stale geometry image guest := by
  rw [stale_iff, stale_iff, sound.inPlace_congr supported sound' entry, entry]

theorem Unnoticed.written
    (unnoticed : Unnoticed geometry image mid region pinned tabled) (written : Written geometry mid after offset data) :
    Written geometry image after offset data := by
  refine written.before (sound.stale_congr supported unnoticed.sound (unnoticed.entry _))
    (fun position byte shown => (unnoticed.view position).trans shown) unnoticed.entry ?_ ?_
  · rw [unnoticed.rest]
  · rw [unnoticed.rest]

end

variable (standard : geometry.Standard) (bytewise : image.BackingBytewise)
  (sound : Sound geometry image region pinned tabled)
include standard bytewise sound

theorem writeThrough_spec (slot : Slot geometry image (offset / geometry.clusterSize) table)
    (together : EndsWell geometry image (offset / geometry.clusterSize))
    (inside : offset % geometry.clusterSize + data.length ≤ geometry.clusterSize) :
    Spends Image.spare 1 (writeThrough geometry fuel offset data (table * geometry.clusterSize)) image fun _ after =>
      Written geometry image after offset data := by
  have supported := standard.toSupported
  have clusterOff := cluster_start geometry offset
  have index : geometry.l2IndexOf (offset - offset % geometry.clusterSize) =
      offset / geometry.clusterSize % geometry.l2Entries := by
    rw [Geometry.l2IndexOf_eq, clusterOff, mul_div_clusterSize]
  unfold writeThrough
  dsimp only
  rw [index, clusterOff]
  refine .bindKept (l2Entry_unnoticed supported sound slot.toTableAt) ?_
  rintro _ loaded ⟨rfl, length, unnoticed⟩
  refine .bindKept (ownsCluster_spec supported unnoticed.sound _) ?_
  rintro inPlace checked ⟨decides, length', unnoticed'⟩
  have both := unnoticed.trans unnoticed'
  have here := slot.unnoticed both (by omega)
  have sameBacking : checked.BackingBytewise := by
    rw [both.rest]
    exact bytewise
  rw [← unnoticed.sound.inPlace_congr supported both.sound (unnoticed'.entry _)] at decides
  rw [← unnoticed'.entry]
  refine .ite (fun isInPlace => ?_) fun elsewhere => ?_
  · refine .of_kept ((writeInPlace_spec supported both.sound here (decides.mp isInPlace) inside).mono ?_)
    exact fun _ after written => ⟨written.1, both.written supported sound written.2⟩
  have elsewhere : ¬InPlace geometry checked (offset / geometry.clusterSize) := fun yes => elsewhere (decides.mpr yes)
  refine .bindKept (?_ : Ensures _ checked fun (base : List UInt8) after => after.spare = checked.spare ∧
    checked = after ∧ base.length = geometry.clusterSize ∧ ∀ index byte, index < geometry.clusterSize →
      index < offset % geometry.clusterSize ∨ offset % geometry.clusterSize + data.length ≤ index →
      checked.view geometry (offset / geometry.clusterSize * geometry.clusterSize + index) = some byte →
        base[index]? = some byte) ?_
  · refine .ite (fun whole => .pure ⟨rfl, rfl, length_replicate, ?_⟩) fun _ => ?_
    · intro index byte within away
      omega
    refine (clusterBase_spec sameBacking _).mono ?_
    rintro base _ ⟨rfl, size, known⟩
    exact ⟨rfl, rfl, size, fun index byte within _ shown => known index byte within shown⟩
  rintro base _ ⟨rfl, size, merges⟩
  rw [lift_replaceCluster]
  refine (writeNew_spec standard both.sound here elsewhere (together.of_entry (both.entry _)) inside size merges).mono ?_
  exact fun _ after written => both.written supported sound written

theorem writeCluster_spec (together : EndsWell geometry image (offset / geometry.clusterSize))
    (inside : offset % geometry.clusterSize + data.length ≤ geometry.clusterSize) :
    Spends Image.spare 2 (writeCluster geometry fuel offset data) image fun _ after =>
      Written geometry image after offset data := by
  have supported := standard.toSupported
  rw [writeCluster_eq, supported.l1IndexOf_eq, cluster_start, mul_div_clusterSize]
  refine Spends.le (.bind (l2ForWrite_spec standard sound (offset / geometry.clusterSize) fuel) ?_) (le_refl (1 + 1))
  rintro _ mid ⟨table, tabled', rfl, prepared⟩
  have sameBacking : mid.BackingBytewise := by
    intro backing held
    exact bytewise backing (prepared.backing.symm.trans held)
  refine (writeThrough_spec standard sameBacking prepared.sound prepared.slot (together.of_entry (prepared.entry _)) inside).mono
    fun _ after written => ?_
  exact written.before (sound.stale_congr supported prepared.sound (prepared.entry _)) prepared.view prepared.entry
    prepared.size prepared.backing

end

/-- Whenever a write comes to a stale cluster, it has only zeros to write there. -/
def Harmless (geometry : Geometry) (fuel : Nat) : Nat → Nat → List UInt8 → Image → Prop
  | 0, _, _, _ => True
  | rounds + 1, offset, data, image =>
    let take := min (geometry.clusterSize - offset % geometry.clusterSize) data.length
    data = [] ∨
      (Stale geometry image (offset / geometry.clusterSize) → ∀ byte ∈ data.take take, byte = 0) ∧
        ∀ after, writeCluster geometry fuel offset (data.take take) image = .ok () after →
          Harmless geometry fuel rounds (wrap (offset + take)) (data.drop take) after

/-- The first condition stands on the image before the write: no byte but zero goes to a cluster with the zero flag. -/
def Unflagged (geometry : Geometry) (image : Image) (offset : Nat) (data : List UInt8) : Prop :=
  ∀ index byte, data[index]? = some byte → byte ≠ 0 →
    isZero (image.entryOf geometry ((offset + index) / geometry.clusterSize)) = false

structure Ran (geometry : Geometry) (image after : Image) (offset : Nat) (data : List UInt8) (harmless : Prop) : Prop where
  consistent : ∃ region pinned tabled, Sound geometry after region pinned tabled
  size : after.size = image.size
  backing : after.backingImage = image.backingImage
  outside : ∀ position byte, position < offset ∨ offset + data.length ≤ position →
    image.view geometry position = some byte → after.view geometry position = some byte
  inside : harmless ↔ ∀ index < data.length, after.view geometry (offset + index) = data[index]?
  unflagged : Unflagged geometry image offset data → harmless

theorem Ran.done (sound : Sound geometry image region pinned tabled) (offset : Nat) {harmless : Prop} (holds : harmless) :
    Ran geometry image image offset [] harmless :=
  ⟨⟨_, _, _, sound⟩, rfl, rfl, fun _ _ _ shown => shown, ⟨fun _ _ inside => (nomatch inside), fun _ => holds⟩, fun _ => holds⟩

theorem Written.then {offset take : Nat} {data : List UInt8} {harmless : Prop}
    (short : take ≤ data.length)
    (here : ∀ index < take, (offset + index) / geometry.clusterSize = offset / geometry.clusterSize)
    (apart : ∀ index < data.length, take ≤ index →
      (offset + index) / geometry.clusterSize ≠ offset / geometry.clusterSize) (written : Written geometry image mid offset (data.take take))
    (ran : Ran geometry mid after (offset + take) (data.drop take) harmless) : Ran geometry image after offset data
      ((Stale geometry image (offset / geometry.clusterSize) → ∀ byte ∈ data.take take, byte = 0) ∧ harmless) := by
  have length : (data.take take).length = take := length_take_of_le short
  have rest : (data.drop take).length = data.length - take := length_drop
  -- The rest of the write leaves the bytes of the first cluster alone.
  have kept {index : Nat} (early : index < take) {byte : UInt8} (shown : mid.view geometry (offset + index) = some byte) :
      after.view geometry (offset + index) = some byte := ran.outside _ byte (by omega) shown
  have first {index : Nat} (early : index < take) : (data.take take)[index]? = data[index]? := by
    rw [getElem?_take, if_pos early]
  have place {byte : UInt8} (member : byte ∈ data.take take) : ∃ index < take, data[index]? = some byte := by
    obtain ⟨index, found⟩ := getElem?_of_mem member
    have early : index < take := by
      have := (List.getElem?_eq_some_iff.mp found).1
      omega
    exact ⟨index, early, (first early).symm.trans found⟩
  refine ⟨ran.consistent, ran.size.trans written.size, ran.backing.trans written.backing,
    fun position byte away shown => ?_, ⟨?_, ?_⟩, fun unflagged => ⟨fun stale byte member => ?_, ran.unflagged ?_⟩⟩
  · refine ran.outside position byte (by omega) (written.outside position byte ?_ shown)
    rw [length]
    omega
  · rintro ⟨zeros, later⟩ index inside
    by_cases early : index < take
    · have value : data[index]? = some data[index] := getElem?_eq_getElem inside
      rw [value]
      apply kept early
      by_cases stale : Stale geometry image (offset / geometry.clusterSize)
      · have member : data[index] ∈ data.take take := mem_of_getElem? ((first early).trans value)
        rw [written.stale stale index (by omega), zeros stale _ member]
      · rw [written.inside stale index (by omega), first early, value]
    have known := ran.inside.mp later (index - take) (by omega)
    rw [getElem?_drop, show take + (index - take) = index by omega] at known
    rw [← known]
    congr 1
    omega
  · intro shown
    refine ⟨fun stale byte member => ?_, ran.inside.mpr fun index inside => ?_⟩
    · obtain ⟨index, early, found⟩ := place member
      have zero := kept early (written.stale stale index (by omega))
      rw [shown index (by omega), found] at zero
      exact Option.some.inj zero
    · rw [getElem?_drop, ← shown (take + index) (by omega), Nat.add_assoc]
  · obtain ⟨index, early, found⟩ := place member
    by_contra nonzero
    have plain := unflagged index byte found nonzero
    rw [here index early, stale.2.2.2] at plain
    cases plain
  · intro index byte found nonzero
    rw [getElem?_drop] at found
    have inside := (List.getElem?_eq_some_iff.mp found).1
    rw [Nat.add_assoc, written.entry _ (apart _ inside (Nat.le_add_right ..))]
    exact unflagged _ byte found nonzero

/-- How many clusters some bytes of the guest are in. -/
def clustersOf (geometry : Geometry) (offset length : Nat) : Nat :=
  if length = 0 then 0 else (offset + length - 1) / geometry.clusterSize + 1 - offset / geometry.clusterSize

theorem clustersOf_step {offset length take : Nat} (nonempty : 0 < length)
    (chunk : min (geometry.clusterSize - offset % geometry.clusterSize) length = take) :
    1 + clustersOf geometry (offset + take) (length - take) ≤ clustersOf geometry offset length := by
  have positive := geometry.clusterSize_pos
  have small := Nat.mod_lt offset positive
  have base := Nat.div_add_mod' offset geometry.clusterSize
  have least : offset / geometry.clusterSize ≤ (offset + length - 1) / geometry.clusterSize :=
    Nat.div_le_div_right (by omega)
  rw [clustersOf, clustersOf, if_neg (by omega : length ≠ 0)]
  split
  · omega
  · next some =>
    have next : offset + take = (offset / geometry.clusterSize + 1) * geometry.clusterSize := by
      rw [Nat.succ_mul]
      omega
    have quotient : (offset + take) / geometry.clusterSize = offset / geometry.clusterSize + 1 := by
      rw [next, Nat.mul_div_cancel _ positive]
    have reach : offset / geometry.clusterSize + 1 ≤ (offset + length - 1) / geometry.clusterSize :=
      quotient ▸ Nat.div_le_div_right (by omega)
    rw [quotient, show offset + take + (length - take) - 1 = offset + length - 1 by omega]
    omega

theorem writeClusters_spec (standard : geometry.Standard) {fuel rounds offset : Nat} {data : List UInt8}
    (bytewise : image.BackingBytewise) (consistent : ∃ region pinned tabled, Sound geometry image region pinned tabled)
    (together : ∀ index < data.length, EndsWell geometry image ((offset + index) / geometry.clusterSize))
    (enough : data.length ≤ rounds) (inRange : offset + data.length < 2 ^ 64) :
    Spends Image.spare (2 * clustersOf geometry offset data.length) (writeClusters geometry fuel rounds offset data) image
      fun _ after =>
      Ran geometry image after offset data (Harmless geometry fuel rounds offset data image) := by
  obtain ⟨region, pinned, tabled, sound⟩ := consistent
  induction rounds generalizing image offset data region pinned tabled with
  | zero =>
    cases eq_nil_of_length_eq_zero (Nat.le_zero.mp enough)
    exact .of_kept (Ensures.pure ⟨rfl, .done sound offset trivial⟩)
  | succ rounds ih =>
    refine .ite (fun empty => ?_) fun some => ?_
    · subst empty
      exact .of_kept (Ensures.pure ⟨rfl, .done sound offset (.inl rfl)⟩)
    have size := Nat.mod_lt offset geometry.clusterSize_pos
    generalize chunk : min (geometry.clusterSize - offset % geometry.clusterSize) data.length = take
    have length : (data.take take).length = take := length_take_of_le (by omega)
    have next : wrap (offset + take) = offset + take := Nat.mod_eq_of_lt (by omega)
    have nonempty := List.length_pos_iff.mpr some
    have base := cluster_position geometry offset
    have here (index : Nat) (early : index < take) :
        (offset + index) / geometry.clusterSize = offset / geometry.clusterSize := by
      have quotient := (div_mod_of_lt (offset / geometry.clusterSize)
        (by omega : offset % geometry.clusterSize + index < geometry.clusterSize)).1
      rwa [← Nat.add_assoc, base] at quotient
    have apart (index : Nat) (inside : index < data.length) (late : take ≤ index) :
        (offset + index) / geometry.clusterSize ≠ offset / geometry.clusterSize := by
      have reach := (Nat.le_div_iff_mul_le geometry.clusterSize_pos).mpr
        (by rw [Nat.succ_mul]; omega : (offset / geometry.clusterSize).succ * geometry.clusterSize ≤ offset + index)
      omega
    have step : Spends Image.spare 2 (writeCluster geometry fuel offset (data.take take)) image fun value mid =>
        Written geometry image mid offset (data.take take) ∧
          writeCluster geometry fuel offset (data.take take) image = .ok value mid := by
      intro value mid ran enough
      have together : EndsWell geometry image (offset / geometry.clusterSize) := together 0 nonempty
      obtain ⟨left, written⟩ := writeCluster_spec standard bytewise sound together (by rw [length]; omega) value mid ran
        enough
      exact ⟨left, written, ran⟩
    have cost := clustersOf_step nonempty chunk
    rw [← length_drop] at cost
    refine Spends.le (.bind step ?_) (by omega : 2 + 2 * clustersOf geometry (offset + take) (data.drop take).length ≤ _)
    rintro ⟨⟩ mid ⟨written, ranStep⟩
    obtain ⟨region', pinned', tabled', sound'⟩ := written.consistent
    have sameBacking : mid.BackingBytewise := fun backing held => bytewise backing (written.backing.symm.trans held)
    rw [next]
    have together' (index : Nat) (inside : index < (data.drop take).length) :
        EndsWell geometry mid ((offset + take + index) / geometry.clusterSize) := by
      rw [length_drop] at inside
      rw [Nat.add_assoc]
      exact (together _ (by omega)).of_entry (written.entry _ (apart _ (by omega) (Nat.le_add_right ..)))
    refine (ih sameBacking together' (by rw [length_drop]; omega) (by rw [length_drop]; omega) _ _ _ sound').mono
      fun _ after ran => ?_
    have whole := written.then (by omega) here apart ran
    have unfolded : Harmless geometry fuel (rounds + 1) offset data image ↔
        (Stale geometry image (offset / geometry.clusterSize) → ∀ byte ∈ data.take take, byte = 0) ∧
          Harmless geometry fuel rounds (offset + take) (data.drop take) mid := by
      show (data = [] ∨ _) ↔ _
      rw [chunk, next, ranStep]
      constructor
      · rintro (empty | ⟨zeros, later⟩)
        · exact absurd empty some
        · exact ⟨zeros, later mid rfl⟩
      rintro ⟨zeros, later⟩
      refine .inr ⟨zeros, fun other same => ?_⟩
      cases same
      exact later
    exact ⟨whole.consistent, whole.size, whole.backing, whole.outside, unfolded.trans whole.inside,
      fun unflagged => unfolded.mpr (whole.unflagged unflagged)⟩

section

variable (geometry : Geometry)

def Image.readByte (image : Image) (position : Nat) : Option UInt8 :=
  match readAt geometry position 1 image with
  | .ok [byte] _ => some byte
  | _ => none

def expectedByte (image : Image) (offset : Nat) (data : List UInt8) (position : Nat) : Option UInt8 :=
  if offset ≤ position ∧ position < offset + data.length then data[position - offset]?
  else image.readByte geometry position

def ReadsBack (image after : Image) (offset : Nat) (data : List UInt8) : Prop :=
  ∀ start bytes, start + bytes.length ≤ image.size → Spells (expectedByte geometry image offset data) start bytes →
    ∃ final, readAt geometry start bytes.length after = .ok bytes final

def Consistent (image : Image) : Prop :=
  ∃ region pinned tabled, Sound geometry image region pinned tabled

end

section

variable (supported : geometry.Supported) (writable : geometry.readOnly = false) (bytewise : image.BackingBytewise)
  (consistent : Consistent geometry image)
include supported writable bytewise consistent

theorem readByte_eq_view {position : Nat} (inside : position < image.size) (small : image.size < 2 ^ 64) :
    image.readByte geometry position = image.view geometry position := by
  obtain ⟨region, pinned, tabled, sound⟩ := consistent
  have ends := readAt_ends supported writable bytewise sound (by omega : position + 1 ≤ image.size) small
  unfold Ends at ends
  unfold Image.readByte
  cases read : readAt geometry position 1 image with
  | error error final =>
    rw [read] at ends
    obtain ⟨index, early, unreadable⟩ := ends
    cases Nat.lt_one_iff.mp early
    exact unreadable.symm
  | ok bytes final =>
    rw [read] at ends
    obtain ⟨_, length, spells⟩ := ends
    obtain ⟨byte, rfl⟩ := length_eq_one_iff.mp length
    exact (spells 0 (by simp)).symm

theorem readAt_of_spells {start : Nat} {bytes : List UInt8}
    (inside : start + bytes.length ≤ image.size) (small : image.size < 2 ^ 64)
    (spells : Spells (image.view geometry) start bytes) : ∃ final, readAt geometry start bytes.length image = .ok bytes final := by
  obtain ⟨region, pinned, tabled, sound⟩ := consistent
  have ends := readAt_ends supported writable bytewise sound inside small
  unfold Ends at ends
  cases read : readAt geometry start bytes.length image with
  | error error final =>
    rw [read] at ends
    obtain ⟨index, early, unreadable⟩ := ends
    rw [spells index early, getElem?_eq_getElem early] at unreadable
    cases unreadable
  | ok other final =>
    rw [read] at ends
    obtain ⟨_, length, spells'⟩ := ends
    have same : other = bytes := by
      apply ext_getElem?
      intro index
      by_cases early : index < bytes.length
      · rw [← spells index early, ← spells' index (by omega)]
      · rw [getElem?_eq_none (by omega), getElem?_eq_none (by omega)]
    exact ⟨final, by rw [same]⟩

/-- However the clusters of a range are kept, it is read exactly when each byte of it can be read alone, and what one
read returns no other read changes. -/
theorem readAt_iff_readByte (small : image.size < 2 ^ 64) {offset count : Nat} (inside : offset + count ≤ image.size)
    (bytes : List UInt8) :
    ((∃ after, readAt geometry offset count image = .ok bytes after) ↔
        bytes.length = count ∧ Spells (image.readByte geometry) offset bytes) ∧
      ∀ after, readAt geometry offset count image = .ok bytes after → Consistent geometry after ∧
        ∀ position < image.size, after.readByte geometry position = image.readByte geometry position := by
  have alone {position : Nat} := @readByte_eq_view _ _ supported writable bytewise consistent position
  obtain ⟨region, pinned, tabled, sound⟩ := id consistent
  have ends := (readAt_ends supported writable bytewise sound inside small).ensures bytes
  refine ⟨⟨?_, ?_⟩, fun after read => ?_⟩
  · rintro ⟨after, read⟩
    obtain ⟨_, length, spells⟩ := ends after read
    exact ⟨length, fun index early => (alone (by omega) small).trans (spells index early)⟩
  · rintro ⟨rfl, spells⟩
    exact readAt_of_spells supported writable bytewise consistent inside small fun index early =>
      (alone (by omega) small).symm.trans (spells index early)
  obtain ⟨same, _⟩ := ends after read
  have kept : Consistent geometry after := ⟨_, _, _, same.sound⟩
  have size : after.size = image.size := by rw [same.rest]
  have bytewise' : after.BackingBytewise := by
    rw [same.rest]
    exact bytewise
  refine ⟨kept, fun position early => ?_⟩
  rw [alone early small, readByte_eq_view supported writable bytewise' kept (by omega) (by omega), same.view]

end

theorem writeAt_ensures (fuel offset : Nat) (data : List UInt8) :
    Ensures (writeAt geometry fuel offset data) image fun _ after =>
      geometry.readOnly = false ∧ offset + data.length < 2 ^ 64 ∧ offset + data.length ≤ image.size ∧
        writeBytes geometry fuel offset data image = .ok () after := by
  have writable : Ensures (checkWritable geometry) image fun _ after => image = after ∧ geometry.readOnly = false :=
    Ensures.ite (fun _ => .throw) fun writable => .pure ⟨rfl, by simpa using writable⟩
  refine .bind writable ?_
  rintro _ _ ⟨rfl, writable⟩
  refine .ite (fun _ => .throw) fun small => ?_
  apply Ensures.getThen
  refine .ite (fun _ => .throw) fun inside => ?_
  exact fun _ after ran => ⟨writable, by omega, by omega, ran⟩

/-- An image of one guest cluster, with an L2 table in cluster 3 and data in cluster 5. -/
def allocatedImage (entry : Entry) : Image where
  store :=
    { file := ((File.zeros 3072).patch 2048 [0, 1, 0, 1, 0, 1, 0, 1, 0, 1, 0, 1]).patch 1536 (toBigEndian 8 entry.toNat)
      refcountTableOffset := 512
      refcountTableClusters := 1
      refcountTable := [2048, 0, 0]
      l2Cache := .new 4
      refblockCache := .new 4
      free := { set := .empty, scanNext := 0 }
      headerDirty := false
      refcountTableDirty := false }
  size := 512
  l1Size := 1
  l1TableOffset := 1024
  nbSnapshots := 0
  snapshotsOffset := 0
  headerCluster := []
  backing := none
  backingImage := none
  l1 := [owned 1536]
  l1Dirty := false

theorem allocatedImage_blockHost {entry : Entry} {tableIndex : Nat}
    (present : (allocatedImage entry).store.blockHost tableIndex ≠ 0) : tableIndex = 0 := by
  have inside : tableIndex < 3 := Store.lt_length_of_blockHost present
  match tableIndex, inside with
  | 0, _ => rfl
  | 1, _ => exact absurd hostOf_zero present
  | 2, _ => exact absurd hostOf_zero present

theorem allocatedImage_coherent (entry : Entry) : Coherent packedGeometry (allocatedImage entry).store := by
  refine coherent_of_one (fun _ => rfl) (fun _ => rfl) allocatedImage_blockHost ?_
  have host : (allocatedImage entry).store.blockHost 0 = 2048 := (by decide : hostOf 2048 = 2048)
  rw [host]
  exact ⟨(by decide : 512 ∣ 2048), (by decide : 2048 + 512 ≤ 3072).trans
    ((Nat.le_max_left ..).trans (Nat.le_max_left ..))⟩

theorem allocatedImage_refcount (entry : Entry) (cluster : Nat) :
    (allocatedImage entry).store.refcount packedGeometry cluster = if cluster < 6 then 1 else 0 := by
  by_cases covered : cluster < 256
  · have here : cluster / packedGeometry.refblockEntries = 0 := Nat.div_eq_of_lt covered
    have index : cluster % packedGeometry.refblockEntries = cluster := Nat.mod_eq_of_lt covered
    have host : (allocatedImage entry).store.blockHost 0 = 2048 := (by decide : hostOf 2048 = 2048)
    have block : (allocatedImage entry).store.block packedGeometry 0 = (allocatedImage entry).store.file.read 2048 512 := by
      rw [Store.block, currentTable_of_none rfl, host]
      rfl
    have bytes : window ((allocatedImage entry).store.block packedGeometry 0) (cluster * 2) 2 =
        ((File.zeros 3072).patch 2048 [0, 1, 0, 1, 0, 1, 0, 1, 0, 1, 0, 1]).read (2048 + cluster * 2) 2 := by
      rw [block, File.window_read (by omega)]
      apply File.read_patch_of_disjoint
      rw [length_toBigEndian]
      omega
    rw [Store.refcount, here, index, host, if_neg (by decide)]
    show bigEndian (window _ (cluster * 2) 2) = _
    rw [bytes]
    split
    · next used =>
      have all : ∀ cluster < 6, bigEndian (((File.zeros 3072).patch 2048 [0, 1, 0, 1, 0, 1, 0, 1, 0, 1, 0, 1]).read
          (2048 + cluster * 2) 2) = 1 := by decide +kernel
      exact all cluster used
    · rw [File.read_patch_of_disjoint (by simp; omega), File.read_zeros]
      rfl
  · have missing : (allocatedImage entry).store.blockHost (cluster / packedGeometry.refblockEntries) = 0 := by
      by_contra present
      have first : cluster / 256 = 0 := allocatedImage_blockHost present
      omega
    rw [Store.refcount, if_pos missing, if_neg (by omega)]

theorem allocatedImage_table (entry : Entry) : bytesToWords ((allocatedImage entry).store.content packedGeometry 3) =
      (bytesToWords (replicate 512 0)).set 0 entry := by
  have zeros : ((File.zeros 3072).patch 2048 [0, 1, 0, 1, 0, 1, 0, 1, 0, 1, 0, 1]).read 1536 512 = replicate 512 0 := by
    rw [File.read_patch_of_disjoint (by simp), File.read_zeros]
  have content : (allocatedImage entry).store.content packedGeometry 3 = setWord (replicate 512 0) 0 entry := by
    rw [Store.content, currentTable_of_none rfl, ← zeros]
    exact @File.read_patch_of_inside _ 1536 512 _ 1536 (by decide) (by rw [length_toBigEndian]; decide)
  rw [content, bytesToWords_setWord (by rw [length_replicate]; decide)]

theorem mem_allocatedImage_table {entry word : Entry}
    (listed : word ∈ bytesToWords ((allocatedImage entry).store.content packedGeometry 3)) : word = entry ∨ word = 0 := by
  rw [allocatedImage_table] at listed
  rcases mem_or_eq_of_mem_set listed with zero | same
  · obtain ⟨index, _, rfl⟩ := mem_map.mp zero
    exact .inr (wordAt_zeros ..)
  · exact .inl same

theorem allocatedImage_ledger (entry : Entry) : Ledger packedGeometry (allocatedImage entry).store [1]
    (fun cluster => [0, 2, 5].count cluster) fun cluster => [3].count cluster where
  coherent := allocatedImage_coherent entry
  counted cluster := by
    have pointed : pointers packedGeometry (allocatedImage entry).store.refcountTable = [4] :=
      (by decide : pointers packedGeometry [2048, 0, 0] = [4])
    rw [allocatedImage_refcount, pointed]
    simp only [count_cons, count_nil, beq_iff_eq]
    split_ifs <;> omega
  blocksApart cluster isBlock := by
    obtain ⟨tableIndex, present, same⟩ := isBlock
    cases allocatedImage_blockHost present
    have here : hostOf 2048 = cluster * 512 := same
    rw [(by decide : hostOf 2048 = 2048)] at here
    have four : cluster = 4 := by omega
    subst four
    decide
  regionApart cluster member := by
    cases mem_singleton.mp member
    decide
  tablesApart cluster claimed := by
    cases mem_singleton.mp (count_pos_iff.mp claimed)
    decide
  keys _ held := absurd rfl held
  header := by decide
  free _ listed := absurd rfl listed

theorem allocatedImage_data (cluster : Nat) :
    ((allocatedImage (owned 2560)).dataClusters packedGeometry).count cluster = [5].count cluster := by
  have pointed : pointers packedGeometry (allocatedImage (owned 2560)).l1 = [3] :=
    (by decide : pointers packedGeometry [owned 1536] = [3])
  have refers : entryClusters packedGeometry (owned 2560) = [5] := by decide
  have replaced := @count_flatMap_set _ _ _ (entryClusters packedGeometry) (bytesToWords (replicate 512 0)) 0 0
    (by rw [getElem?_bytesToWords, length_replicate, if_pos (by decide), wordAt_zeros]) (owned 2560) cluster
  rw [← allocatedImage_table, entryClusters_zeros, entryClusters_zero, refers] at replaced
  rw [Image.dataClusters, pointed, flatMap_singleton, Store.tableClusters]
  simpa using replaced

theorem allocatedImage_sound : Sound packedGeometry (allocatedImage (owned 2560)) [1]
    (fun cluster => [0, 2, 5].count cluster) fun cluster => [3].count cluster := by
  have pointed : pointers packedGeometry (allocatedImage (owned 2560)).l1 = [3] :=
    (by decide : pointers packedGeometry [owned 1536] = [3])
  refine ⟨allocatedImage_ledger (owned 2560), fun cluster => ?_, fun cluster => ?_, ?_, fun entry member _ => ?_,
    fun table member entry listed _ => ?_, fun table member entry listed _ _ present => ?_, ?_⟩
  · rw [pointed]
  · rw [allocatedImage_data]
    simp only [count_cons, count_nil]
    omega
  · rw [allocatedImage_data]
    decide
  · cases mem_singleton.mp member
    have host : hostOf (owned 1536) = 1536 := by decide
    rw [host]
    exact ⟨(by decide : 512 ∣ 1536), (by decide : 1536 + 512 ≤ 3072).trans
      ((Nat.le_max_left ..).trans (Nat.le_max_left ..))⟩
  · rw [pointed] at member
    cases mem_singleton.mp member
    rcases mem_allocatedImage_table listed with rfl | rfl
    · exact (by decide : 512 ∣ hostOf (owned 2560))
    · exact (by decide : 512 ∣ hostOf 0)
  · rw [pointed] at member
    cases mem_singleton.mp member
    rcases mem_allocatedImage_table listed with rfl | rfl
    · exact (by decide : [0, 2, 5].count (hostOf (owned 2560) / 512) = 1)
    · exact absurd hostOf_zero present
  · exact Nat.max_le.mpr ⟨Nat.max_le.mpr ⟨by decide, by decide⟩, by rw [length_toBigEndian]; decide⟩

theorem readAt_iff_readByte_allocated :
    ∃ after, readAt packedGeometry 3 2 (allocatedImage (owned 2560)) = .ok [0, 0] after := by
  have zeros : ∀ index < 2, (allocatedImage (owned 2560)).readByte packedGeometry (3 + index) = [0, 0][index]? := by
    decide +kernel
  exact (readAt_iff_readByte ⟨by decide, by decide, .sixteen⟩ rfl (fun _ held => by cases held)
    ⟨_, _, _, allocatedImage_sound⟩ (by decide) (by decide) _).1.mpr ⟨rfl, zeros⟩

end Vmlab.Disk.Qcow2
