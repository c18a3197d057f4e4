import Vmlab.Agent.Frame

/-!
# The port writer of the guest agent

One thread takes the encoded frames from a queue and offers each until the write succeeds, the driver has taken the
request over, or the frame's channel is cancelled. A refused frame is offered again from its first byte.
-/

namespace Vmlab.Agent

inductive Ending where
  | sent
  | abandoned (written : Nat)
  | cancelled
  deriving DecidableEq

/-- What a write puts on the wire: a part of its frame, or all of it. -/
inductive Write where
  | cut (written : Nat)
  | whole
  deriving DecidableEq

/-- The turns of the loop over one frame: the offers that failed, with what each had put on the wire, and the last
turn. A cancelled write can fail although it put all of its frame there. -/
structure Offers where
  failed : List Write
  ending : Ending

def Ending.writes : Ending → List Write
  | .sent => [.whole]
  | .abandoned written => [.cut written]
  | .cancelled => []

def Offers.writes (offers : Offers) : List Write := offers.failed ++ offers.ending.writes

def Write.put (bytes : List UInt8) : Write → List UInt8
  | .cut written => bytes.take written
  | .whole => bytes

def portStream (queue : List (Frame × Offers)) : List UInt8 :=
  queue.flatMap fun entry => entry.2.writes.flatMap (Write.put (encodeFrame entry.1))

/-- A run that can happen: the frame was accepted by the encoder, and a part of it is less than all of it. -/
def Possible (entry : Frame × Offers) : Prop :=
  entry.1.payload.length ≤ maxPayload ∧
    ∀ written, .cut written ∈ entry.2.writes → written < (encodeFrame entry.1).length

/-- A host decodes every frame that was not cancelled, once, in queue order, and nothing that was not queued. -/
inductive Delivered : List (Frame × Offers) → List Frame → Prop where
  | nil : Delivered [] []
  | frame {entry : Frame × Offers} {queue : List (Frame × Offers)} {frames : List Frame} :
      Delivered queue frames → Delivered (entry :: queue) (entry.1 :: frames)
  | dropped {entry : Frame × Offers} {queue : List (Frame × Offers)} {frames : List Frame} :
      entry.2.ending = .cancelled → Delivered queue frames → Delivered (entry :: queue) frames

def cutBytes : List Write → Option Nat
  | [] => some 0
  | .cut written :: rest => (cutBytes rest).map (written + ·)
  | .whole :: _ => none

def harmlessCut (written : Nat) (rest : List Write) : Bool :=
  written ≤ 8 ||
    match cutBytes rest with
    | some following => following = 0 || written + following < headerLen
    | none => false

def harmless : List Write → Bool
  | [] => true
  | .cut written :: rest => harmlessCut written rest && harmless rest
  | .whole :: rest => harmless rest

/-- A frame that is not cancelled is put on the wire as a whole once, and a cancelled one no more often. -/
def Offers.once (offers : Offers) : Bool :=
  match offers.ending with
  | .cancelled => offers.writes.count .whole ≤ 1
  | _ => offers.writes.count .whole = 1

open Library List

/-! ## The offers of a queue, one by one -/

abbrev Offer := Frame × Write

def Offer.bytes (offer : Offer) : List UInt8 := offer.2.put (encodeFrame offer.1)

def offersOf (queue : List (Frame × Offers)) : List Offer :=
  queue.flatMap fun entry => entry.2.writes.map (entry.1, ·)

def streamOf (offers : List Offer) : List UInt8 := offers.flatMap Offer.bytes

def wholesOf (offers : List Offer) : List Frame := (offers.filter (·.2 = .whole)).map Prod.fst

structure Offer.Fits (offer : Offer) : Prop where
  accepted : offer.1.payload.length ≤ maxPayload
  cut : ∀ written, offer.2 = .cut written → written < (encodeFrame offer.1).length

theorem portStream_eq (queue : List (Frame × Offers)) : portStream queue = streamOf (offersOf queue) := by
  simp only [portStream, streamOf, offersOf, flatMap_assoc, flatMap_map]
  rfl

variable {queue : List (Frame × Offers)} {frame : Frame} {written index : Nat} {byte : UInt8} {buf : List UInt8}
    {offers : List Offer} {writes : List Write} {schedule : List Offers}

theorem offersOf_fits (possible : ∀ entry ∈ queue, Possible entry) : ∀ offer ∈ offersOf queue, offer.Fits := by
  intro offer member
  obtain ⟨entry, queued, listed⟩ := mem_flatMap.mp member
  obtain ⟨write, written, rfl⟩ := mem_map.mp listed
  refine ⟨(possible entry queued).1, ?_⟩
  rintro amount rfl
  exact (possible entry queued).2 amount written

theorem offersOf_writes (queue : List (Frame × Offers)) :
    (offersOf queue).map Prod.snd = (queue.map Prod.snd).flatMap Offers.writes := by
  simp [offersOf, map_flatMap, flatMap_map, Function.comp_def]

@[simp] theorem streamOf_cons (offer : Offer) (offers : List Offer) :
    streamOf (offer :: offers) = offer.bytes ++ streamOf offers := flatMap_cons

theorem streamOf_append (before after : List Offer) :
    streamOf (before ++ after) = streamOf before ++ streamOf after := flatMap_append

theorem wholesOf_cons_whole (frame : Frame) (offers : List Offer) :
    wholesOf ((frame, .whole) :: offers) = frame :: wholesOf offers := rfl

theorem wholesOf_cons_cut (frame : Frame) (written : Nat) (offers : List Offer) :
    wholesOf ((frame, .cut written) :: offers) = wholesOf offers := rfl

theorem Offer.Fits.length_cut (fits : Offer.Fits (frame, .cut written)) :
    (Offer.bytes (frame, .cut written)).length = written := by
  have inside := fits.cut written rfl
  rw [Offer.bytes, Write.put, length_take]
  exact Nat.min_eq_left (by omega)

/-! ## The first bytes of a stream -/

structure Fresh (stream : List UInt8) : Prop where
  first : ∀ byte, stream[0]? = some byte → byte = 0x56
  letters : ∀ index byte, index < 4 → stream[index]? = some byte → 0x42 ≤ byte.toNat

theorem fresh_nil : Fresh [] where
  first _ found := by cases found
  letters _ _ _ found := by cases found

theorem magic_letter (found : magic[index]? = some byte) : 0x42 ≤ byte.toNat := by
  have inside := (List.getElem?_eq_some_iff.mp found).1
  have bound : index < 4 := inside
  interval_cases index <;> cases found <;> decide

theorem magic_isPrefix_encodeFrame (frame : Frame) : magic <+: encodeFrame frame := by
  rw [encodeFrame_eq]
  exact prefix_append _ _

theorem fresh_append {bytes : List UInt8} {stream : List UInt8} (fresh : Fresh stream)
    (front : bytes <+: encodeFrame frame) : Fresh (bytes ++ stream) := by
  have letter : ∀ index byte, index < 4 → index < bytes.length → (bytes ++ stream)[index]? = some byte →
      magic[index]? = some byte := by
    intro index byte small inside found
    rw [getElem?_append_left inside, getElem?_eq_getElem inside, front.getElem inside, ← getElem?_eq_getElem] at found
    have within : index < magic.length := small
    rw [getElem?_eq_getElem within, (magic_isPrefix_encodeFrame frame).getElem within, ← getElem?_eq_getElem]
    exact found
  constructor
  · intro byte found
    by_cases inside : 0 < bytes.length
    · have same := letter 0 byte (by omega) inside found
      cases same
      rfl
    rw [getElem?_append_right (by omega)] at found
    rw [Nat.zero_sub] at found
    exact fresh.first byte found
  intro index byte small found
  by_cases inside : index < bytes.length
  · exact magic_letter (letter index byte small inside found)
  · rw [getElem?_append_right (by omega)] at found
    exact fresh.letters _ byte (by omega) found

theorem Offer.bytes_isPrefix (offer : Offer) : offer.bytes <+: encodeFrame offer.1 := by
  obtain ⟨frame, write⟩ := offer
  cases write with
  | cut written => exact take_prefix written _
  | whole => exact prefix_refl _

theorem streamOf_fresh (offers : List Offer) : Fresh (streamOf offers) := by
  induction offers with
  | nil => exact fresh_nil
  | cons offer offers ih =>
    rw [streamOf_cons]
    exact fresh_append ih offer.bytes_isPrefix

/-! ## The first eight bytes of a frame are skipped -/

theorem getElem?_of_magic (starts : magic.isPrefixOf buf = true) (small : index < 4) :
    buf[index]? = magic[index]? := by
  rw [List.isPrefixOf_iff_prefix] at starts
  have within : index < magic.length := small
  rw [getElem?_eq_getElem within, starts.getElem within, ← getElem?_eq_getElem]

theorem plausible_high (high : buf[7]? = some byte) (nonzero : 0 < byte.toNat) : plausibleHeader buf = none := by
  have long := (List.getElem?_eq_some_iff.mp high).1
  obtain ⟨a, b, c, d, same⟩ : ∃ a b c d, window buf 4 4 = [a, b, c, d] := by
    have length : (window buf 4 4).length = 4 := length_window (by omega)
    match window buf 4 4, length with
    | [a, b, c, d], _ => exact ⟨a, b, c, d, rfl⟩
  have last : d = byte := by
    have found : (window buf 4 4)[3]? = some byte := by
      rw [window, getElem?_take_of_lt (by omega), getElem?_drop]
      exact high
    rw [same] at found
    cases found
    rfl
  have large : ¬ fromLe32 (window buf 4 4) ≤ maxPayload := by
    rw [same, last]
    simp only [fromLe32, bigEndian, reverse_cons, reverse_nil, nil_append, cons_append,
      foldl_cons, foldl_nil, maxPayload]
    omega
  simp only [plausibleHeader]
  cases (buf[8]?).bind FrameKind.fromU8 with
  | none => rfl
  | some kind => exact if_neg large

theorem plausible_kind (kind : buf[8]? = some byte) (letter : byte = 0x56) : plausibleHeader buf = none := by
  subst letter
  simp only [plausibleHeader, kind]
  rfl

def preamble (len : Nat) : List UInt8 := magic ++ toLe32 len

theorem toLe32_high {len : Nat} (fits : len ≤ maxPayload) :
    (∀ byte, (toLe32 len)[2]? = some byte → byte.toNat ≤ 1) ∧ ∀ byte, (toLe32 len)[3]? = some byte → byte = 0 := by
  have bound : len ≤ 65536 := fits
  have bytes : toLe32 len = [.ofNat len, .ofNat (len / 256), .ofNat (len / 256 / 256), .ofNat (len / 256 / 256 / 256)] :=
    rfl
  rw [bytes]
  constructor
  · intro byte found
    cases found
    rw [UInt8.toNat_ofNat']
    omega
  intro byte found
  cases found
  apply UInt8.toNat_inj.mp
  rw [UInt8.toNat_ofNat']
  have zero : len / 256 / 256 / 256 = 0 := by omega
  rw [zero]
  rfl

def cutPreamble (len count skip : Nat) (stream : List UInt8) : List UInt8 :=
  ((preamble len).take count).drop skip ++ stream

section

variable {len count skip : Nat} {stream : List UInt8}

theorem length_preamble (len : Nat) : (preamble len).length = 8 := by
  simp [preamble, magic]

section

variable (short : count ≤ 8)
include short

theorem length_cutPreamble : (((preamble len).take count).drop skip).length = count - skip := by
  rw [length_drop, length_take, length_preamble]
  omega

theorem cutPreamble_inside (inside : skip + index < count) :
    (cutPreamble len count skip stream)[index]? = (preamble len)[skip + index]? := by
  rw [cutPreamble, getElem?_append_left (by rw [length_cutPreamble short]; omega), getElem?_drop,
    getElem?_take_of_lt inside]

theorem cutPreamble_behind (skipped : skip ≤ count) (behind : count ≤ skip + index) :
    (cutPreamble len count skip stream)[index]? = stream[skip + index - count]? := by
  rw [cutPreamble, getElem?_append_right (by rw [length_cutPreamble short]; omega), length_cutPreamble short]
  congr 1
  omega

theorem cutPreamble_interrupted (skipped : skip < count) (near : count - skip < 4)
    (fresh : Fresh stream) : ¬ magic.isPrefixOf (cutPreamble len count skip stream) = true := by
  intro starts
  have letter := getElem?_of_magic starts near
  have within : count - skip < magic.length := near
  rw [cutPreamble_behind short (by omega) (by omega), Nat.add_sub_of_le (by omega), Nat.sub_self,
    getElem?_eq_getElem within] at letter
  have same := fresh.first _ letter
  have gap : count - skip = 1 ∨ count - skip = 2 ∨ count - skip = 3 := by omega
  rcases gap with gap | gap | gap <;> simp only [gap] at same <;> cases same

theorem cutPreamble_rejected (whole : 4 ≤ count) (fresh : Fresh stream)
    (long : headerLen ≤ (cutPreamble len count 0 stream).length) : plausibleHeader (cutPreamble len count 0 stream) = none := by
  have enough : 13 ≤ (cutPreamble len count 0 stream).length := long
  by_cases all : count = 8
  · obtain ⟨byte, found⟩ : ∃ byte, (cutPreamble len count 0 stream)[8]? = some byte :=
      ⟨_, getElem?_eq_getElem (by omega)⟩
    have first := found
    rw [cutPreamble_behind short (by omega) (by omega), all] at first
    exact plausible_kind found (fresh.first byte first)
  obtain ⟨byte, found⟩ : ∃ byte, (cutPreamble len count 0 stream)[7]? = some byte :=
    ⟨_, getElem?_eq_getElem (by omega)⟩
  have letter := found
  rw [cutPreamble_behind short (by omega) (by omega)] at letter
  have large := fresh.letters _ byte (by omega) letter
  exact plausible_high found (by omega)

end

theorem cutPreamble_inner (fits : len ≤ maxPayload) (short : count ≤ 8) (skipped : 0 < skip) (few : skip ≤ 4)
    (far : 4 ≤ count - skip) : ¬ magic.isPrefixOf (cutPreamble len count skip stream) = true := by
  intro starts
  by_cases inMagic : skip < 4
  · have first := getElem?_of_magic starts (show 0 < 4 by omega)
    rw [cutPreamble_inside short (by omega), Nat.add_zero, preamble, getElem?_append_left inMagic] at first
    interval_cases skip <;> cases first
  have third := getElem?_of_magic starts (show 2 < 4 by omega)
  have start : skip = 4 := by omega
  subst start
  rw [cutPreamble_inside short (by omega), preamble, getElem?_append_right (by decide)] at third
  exact absurd ((toLe32_high fits).1 _ third) (by decide)

theorem cutPreamble_no_header (fits : len ≤ maxPayload) (short : count ≤ 8) (skipped : skip < count)
    (fresh : Fresh stream) (kind : FrameKind) (named : Nat) :
    ¬ Header (cutPreamble len count skip stream) kind named := by
  intro header
  rcases Nat.lt_or_ge (count - skip) 4 with near | far
  · exact cutPreamble_interrupted short skipped near fresh header.starts
  rcases Nat.eq_zero_or_pos skip with rfl | positive
  · have names := header.names
    rw [cutPreamble_rejected short (by omega) fresh header.long] at names
    cases names
  · exact cutPreamble_inner fits short positive (by omega) far header.starts

end

theorem framesOf_drop_front {front stream : List UInt8}
    (none : ∀ skip, skip < front.length → ∀ kind len, ¬ Header (front.drop skip ++ stream) kind len) :
    framesOf (front ++ stream) = framesOf stream := by
  induction front with
  | nil => rfl
  | cons byte front ih =>
    have skipped : framesOf (byte :: (front ++ stream)) = framesOf (front ++ stream) :=
      framesOf_skip (none 0 (by simp))
    rw [cons_append, skipped]
    refine ih fun skip inside kind len => ?_
    have later := none (skip + 1) (by simpa using inside) kind len
    rw [drop_succ_cons] at later
    exact later

theorem encodeFrame_take (short : written ≤ 8) :
    (encodeFrame frame).take written = (preamble frame.payload.length).take written := by
  have length := length_preamble frame.payload.length
  rw [encodeFrame_eq, ← append_assoc, ← preamble]
  exact take_append_of_le_length (by omega)

theorem framesOf_short_cut (accepted : frame.payload.length ≤ maxPayload)
    (short : written ≤ 8) {stream : List UInt8} (fresh : Fresh stream) :
    framesOf ((encodeFrame frame).take written ++ stream) = framesOf stream := by
  rw [encodeFrame_take short]
  refine framesOf_drop_front fun skip inside kind len => ?_
  rw [length_take] at inside
  exact cutPreamble_no_header accepted short (by omega) fresh kind len

theorem framesOf_cut (accepted : frame.payload.length ≤ maxPayload)
    (cut : written < (encodeFrame frame).length) : framesOf ((encodeFrame frame).take written) = [] := by
  have length : ((encodeFrame frame).take written).length = written := by
    rw [length_take]
    omega
  rcases Nat.lt_or_ge written headerLen with short | long
  · exact framesOf_short (by omega)
  have whole := encodeFrame_header accepted []
  rw [append_nil] at whole
  have inside : headerLen ≤ ((encodeFrame frame).take written).length := by omega
  have header : Header ((encodeFrame frame).take written) frame.kind frame.payload.length := by
    refine whole.of_take ?_ inside
    rw [take_take, Nat.min_eq_left (Nat.le_trans (by decide) long)]
  rw [length_encodeFrame] at cut
  exact framesOf_incomplete header (by omega)

/-! ## Harmless offers -/

theorem cutBytes_spec (fits : ∀ offer ∈ offers, offer.Fits) {following : Nat}
    (cut : cutBytes (offers.map Prod.snd) = some following) :
    (streamOf offers).length = following ∧ wholesOf offers = [] := by
  induction offers generalizing following with
  | nil =>
    cases cut
    exact ⟨rfl, rfl⟩
  | cons offer offers ih =>
    obtain ⟨frame, write⟩ := offer
    cases write with
    | whole => cases cut
    | cut written =>
      rw [map_cons, cutBytes, Option.map_eq_some_iff] at cut
      obtain ⟨rest, restCut, rfl⟩ := cut
      obtain ⟨length, none⟩ := ih (fun offer member => fits offer (mem_cons_of_mem _ member)) restCut
      refine ⟨?_, none⟩
      rw [streamOf_cons, length_append, length, (fits _ mem_cons_self).length_cut]

theorem framesOf_harmless (fits : ∀ offer ∈ offers, offer.Fits)
    (safe : harmless (offers.map Prod.snd) = true) : framesOf (streamOf offers) = wholesOf offers := by
  induction offers with
  | nil => rfl
  | cons offer offers ih =>
    have restFits : ∀ offer ∈ offers, offer.Fits := fun offer member => fits offer (mem_cons_of_mem _ member)
    have here := fits offer mem_cons_self
    obtain ⟨frame, write⟩ := offer
    rw [map_cons] at safe
    cases write with
    | whole =>
      rw [streamOf_cons, wholesOf_cons_whole, ← ih restFits safe]
      exact framesOf_encodeFrame_append here.accepted _
    | cut written =>
      obtain ⟨cut, rest⟩ := Bool.and_eq_true_iff.mp safe
      rw [wholesOf_cons_cut]
      by_cases short : written ≤ 8
      · rw [← ih restFits rest, streamOf_cons]
        exact framesOf_short_cut here.accepted short (streamOf_fresh offers)
      rw [harmlessCut, decide_eq_false short, Bool.false_or] at cut
      cases bytes : cutBytes (offers.map Prod.snd) with
      | none =>
        rw [bytes] at cut
        cases cut
      | some following =>
        rw [bytes] at cut
        obtain ⟨length, none⟩ := cutBytes_spec restFits bytes
        rw [none, streamOf_cons]
        rcases Bool.or_eq_true_iff.mp cut with nothing | few
        · have empty : streamOf offers = [] := length_eq_zero_iff.mp (length.trans (of_decide_eq_true nothing))
          rw [empty, append_nil]
          exact framesOf_cut here.accepted (here.cut written rfl)
        refine framesOf_short ?_
        rw [length_append, length, here.length_cut]
        exact of_decide_eq_true few

/-! ## The first harmful offer -/

theorem harmless_of_few {bytes : Nat} (cut : cutBytes writes = some bytes) (few : bytes ≤ 8) :
    harmless writes = true := by
  induction writes generalizing bytes with
  | nil => rfl
  | cons write writes ih =>
    cases write with
    | whole => cases cut
    | cut written =>
      rw [cutBytes, Option.map_eq_some_iff] at cut
      obtain ⟨rest, restCut, rfl⟩ := cut
      rw [harmless, harmlessCut, decide_eq_true (show written ≤ 8 by omega), Bool.true_or, Bool.true_and]
      exact ih restCut (by omega)

def Write.short : Write → Prop
  | .cut written => written ≤ 8
  | .whole => True

def Swallows (written : Nat) (rest : List Write) : Prop :=
  ∀ following, cutBytes rest = some following → 0 < following ∧ headerLen ≤ written + following

theorem first_harmful (unsafeWrites : harmless writes = false) :
    ∃ before written after, writes = before ++ .cut written :: after ∧ (∀ write ∈ before, write.short) ∧
      8 < written ∧ Swallows written after := by
  induction writes with
  | nil => cases unsafeWrites
  | cons write writes ih =>
    have later : write.short → harmless writes = false → ∃ before written after,
        write :: writes = before ++ .cut written :: after ∧ (∀ write ∈ before, write.short) ∧
          8 < written ∧ Swallows written after := by
      intro short rest
      obtain ⟨before, written, after, rfl, shorts, large, swallows⟩ := ih rest
      refine ⟨write :: before, written, after, rfl, ?_, large, swallows⟩
      intro other member
      rcases mem_cons.mp member with rfl | member
      · exact short
      · exact shorts other member
    cases write with
    | whole => exact later trivial unsafeWrites
    | cut written =>
      rw [harmless, harmlessCut] at unsafeWrites
      by_cases short : written ≤ 8
      · rw [decide_eq_true short, Bool.true_or, Bool.true_and] at unsafeWrites
        exact later short unsafeWrites
      refine ⟨[], written, writes, rfl, by simp, by omega, ?_⟩
      intro following cut
      rw [decide_eq_false short, Bool.false_or, cut] at unsafeWrites
      by_contra little
      have header : headerLen = 13 := rfl
      have few : (decide (following = 0) || decide (written + following < headerLen)) = true := by
        rw [Bool.or_eq_true_iff, decide_eq_true_iff, decide_eq_true_iff]
        omega
      dsimp only at unsafeWrites
      rw [few, harmless_of_few cut (by omega)] at unsafeWrites
      cases unsafeWrites

/-! ## A queue of zeros -/

structure Zero (frame : Frame) : Prop where
  channel : frame.channel = 0
  payload : ∀ byte ∈ frame.payload, byte = 0

theorem fromLe32_zero {bytes : List UInt8} (length : bytes.length = 4) (zero : fromLe32 bytes = 0) :
    ∀ byte ∈ bytes, byte = 0 := by
  have same : bytes = [0, 0, 0, 0] := fromLe32_injective zero length
  subst same
  simp

theorem fromLe32_lt {bytes : List UInt8} (length : bytes.length = 4) : fromLe32 bytes < 2 ^ 32 := by
  have bound := bigEndian_lt bytes.reverse
  rw [length_reverse, length] at bound
  exact bound

theorem mem_window {start count : Nat} (found : buf[start + index]? = some byte)
    (inside : index < count) : byte ∈ window buf start count := by
  have same : (window buf start count)[index]? = some byte := by
    rw [window, getElem?_take_of_lt inside, getElem?_drop]
    exact found
  exact mem_of_getElem? same

theorem frameAt_not_zero {kind : FrameKind} {len position : Nat} (letter : buf[position]? = some 0x56)
    (afterKind : 9 ≤ position) (within : position < headerLen + len) (complete : headerLen + len ≤ buf.length) :
    ¬ Zero (frameAt kind len buf) := by
  intro zero
  have header : headerLen = 13 := rfl
  rcases Nat.lt_or_ge position headerLen with inChannel | inPayload
  · have length : (window buf 9 4).length = 4 := length_window (by omega)
    have channel : fromLe32 (window buf 9 4) = 0 := by
      have same := congrArg UInt32.toNat zero.channel
      rw [frameAt, UInt32.toNat_ofNat', Nat.mod_eq_of_lt (fromLe32_lt length)] at same
      exact same
    have found : buf[9 + (position - 9)]? = some 0x56 := by
      rw [Nat.add_sub_of_le afterKind]
      exact letter
    exact absurd (fromLe32_zero length channel _ (mem_window found (by omega))) (by decide)
  have found : buf[headerLen + (position - headerLen)]? = some 0x56 := by
    rw [Nat.add_sub_of_le inPayload]
    exact letter
  exact absurd (zero.payload _ (mem_window found (by omega))) (by decide)

theorem framesOf_shorts {before : List Offer} (fits : ∀ offer ∈ before, offer.Fits)
    (shorts : ∀ offer ∈ before, offer.2.short) {stream : List UInt8} (fresh : Fresh stream) :
    framesOf (streamOf before ++ stream) = wholesOf before ++ framesOf stream := by
  induction before with
  | nil => rfl
  | cons offer before ih =>
    have here := fits offer mem_cons_self
    have short := shorts offer mem_cons_self
    have rest := ih (fun offer member => fits offer (mem_cons_of_mem _ member))
      (fun offer member => shorts offer (mem_cons_of_mem _ member))
    obtain ⟨frame, write⟩ := offer
    rw [streamOf_cons, append_assoc]
    cases write with
    | whole =>
      rw [wholesOf_cons_whole, cons_append, ← rest]
      exact framesOf_encodeFrame_append here.accepted _
    | cut written =>
      have freshRest : Fresh (streamOf before ++ stream) := by
        clear ih rest fits shorts
        induction before with
        | nil => exact fresh
        | cons offer before ih =>
          rw [streamOf_cons, append_assoc]
          exact fresh_append ih offer.bytes_isPrefix
      rw [wholesOf_cons_cut, ← rest]
      exact framesOf_short_cut here.accepted short freshRest

theorem swallowed {before after : List Offer}
    (fits : ∀ offer ∈ before ++ (frame, .cut written) :: after, offer.Fits) (shorts : ∀ offer ∈ before, offer.2.short)
    (large : 8 < written) (some : streamOf after ≠ [])
    (enough : headerLen + frame.payload.length ≤ written + (streamOf after).length) :
    ∃ bogus ∈ framesOf (streamOf (before ++ (frame, .cut written) :: after)), ¬ Zero bogus := by
  have here : Offer.Fits (frame, .cut written) := fits _ (by simp)
  have cut : written < headerLen + frame.payload.length := by
    rw [← length_encodeFrame]
    exact here.cut written rfl
  have length := here.length_cut
  obtain ⟨byte, rest, behind⟩ := exists_cons_of_ne_nil some
  have first : byte = 0x56 := (streamOf_fresh after).first byte (by rw [behind]; rfl)
  have freshCut := streamOf_fresh ((frame, .cut written) :: after)
  rw [streamOf_append, framesOf_shorts (fun offer member => fits offer (mem_append_left _ member)) shorts freshCut,
    streamOf_cons]
  have total : (Offer.bytes (frame, .cut written) ++ streamOf after).length = written + (streamOf after).length := by
    rw [length_append, length]
  have letter : (Offer.bytes (frame, .cut written) ++ streamOf after)[written]? = .some 0x56 := by
    rw [getElem?_append_right (by omega), length, Nat.sub_self, behind, first]
    rfl
  have header : Header (Offer.bytes (frame, .cut written) ++ streamOf after) frame.kind frame.payload.length := by
    have whole := encodeFrame_header here.accepted []
    rw [append_nil] at whole
    refine whole.of_take ?_ (by omega)
    rw [take_append_of_le_length (by omega), Offer.bytes, Write.put, take_take, Nat.min_eq_left large]
  refine ⟨frameAt frame.kind frame.payload.length (Offer.bytes (frame, .cut written) ++ streamOf after),
    mem_append_right _ ?_, frameAt_not_zero letter large cut (by omega)⟩
  rw [framesOf_header header (by omega)]
  exact mem_cons_self

def longestCut : List Write → Nat
  | [] => 0
  | .cut written :: rest => max written (longestCut rest)
  | .whole :: rest => longestCut rest

theorem le_longestCut (member : .cut written ∈ writes) : written ≤ longestCut writes := by
  induction writes with
  | nil => cases member
  | cons write writes ih =>
    rcases mem_cons.mp member with rfl | later
    · exact Nat.le_max_left _ _
    cases write with
    | cut other => exact (ih later).trans (Nat.le_max_right _ _)
    | whole => exact ih later

theorem longestCut_mem (positive : 0 < longestCut writes) : .cut (longestCut writes) ∈ writes := by
  induction writes with
  | nil => cases positive
  | cons write writes ih =>
    cases write with
    | whole => exact mem_cons_of_mem _ (ih positive)
    | cut written =>
      rw [longestCut] at positive ⊢
      rcases Nat.le_total written (longestCut writes) with less | more
      · rw [Nat.max_eq_right less] at positive ⊢
        exact mem_cons_of_mem _ (ih positive)
      · rw [Nat.max_eq_left more]
        exact mem_cons_self

def zeroFrame (kind : FrameKind) (offers : Offers) : Frame :=
  ⟨kind, 0, List.replicate (longestCut offers.writes - 12) 0⟩

def zeroQueue (schedule : List Offers) : List (Frame × Offers) :=
  schedule.map fun offers => (zeroFrame .data offers, offers)

theorem zeroFrame_zero (kind : FrameKind) (offers : Offers) : Zero (zeroFrame kind offers) where
  channel := rfl
  payload _ member := (mem_replicate.mp member).2

theorem zeroQueue_snd (schedule : List Offers) : (zeroQueue schedule).map Prod.snd = schedule := by
  simp [zeroQueue, Function.comp_def]

theorem zeroFrame_possible (kind : FrameKind) {offers : Offers}
    (possible : ∀ written, .cut written ∈ offers.writes → written < headerLen + maxPayload) :
    Possible (zeroFrame kind offers, offers) := by
  have header : headerLen = 13 := rfl
  have payload : (zeroFrame kind offers).payload.length = longestCut offers.writes - 12 := length_replicate
  constructor
  · show (zeroFrame kind offers).payload.length ≤ maxPayload
    rcases Nat.eq_zero_or_pos (longestCut offers.writes) with none | positive
    · omega
    · have bound := possible _ (longestCut_mem positive)
      omega
  intro written cut
  have bound : written ≤ longestCut offers.writes := le_longestCut cut
  rw [length_encodeFrame]
  show written < headerLen + (zeroFrame kind offers).payload.length
  omega

theorem zeroQueue_possible
    (possible : ∀ offers ∈ schedule, ∀ written, .cut written ∈ offers.writes → written < headerLen + maxPayload) :
    ∀ entry ∈ zeroQueue schedule, Possible entry := by
  intro entry member
  obtain ⟨offers, scheduled, rfl⟩ := mem_map.mp member
  exact zeroFrame_possible .data (possible offers scheduled)

theorem zeroQueue_reaches {offer : Offer} (member : offer ∈ offersOf (zeroQueue schedule))
    (payload : 0 < offer.1.payload.length) :
    (offer.1, .cut (12 + offer.1.payload.length)) ∈ offersOf (zeroQueue schedule) := by
  obtain ⟨entry, queued, listed⟩ := mem_flatMap.mp member
  obtain ⟨write, written, rfl⟩ := mem_map.mp listed
  refine mem_flatMap.mpr ⟨entry, queued, mem_map.mpr ⟨_, ?_, rfl⟩⟩
  obtain ⟨offers, scheduled, rfl⟩ := mem_map.mp queued
  have length : (zeroFrame .data offers).payload.length = longestCut offers.writes - 12 := length_replicate
  have same : 12 + (zeroFrame .data offers).payload.length = longestCut offers.writes := by
    change 0 < (zeroFrame .data offers).payload.length at payload
    omega
  show .cut (12 + (zeroFrame .data offers).payload.length) ∈ offers.writes
  rw [same]
  refine longestCut_mem ?_
  omega

theorem streamOf_length_of_mem {offer : Offer} (member : offer ∈ offers) :
    offer.bytes.length ≤ (streamOf offers).length := by
  obtain ⟨before, after, rfl⟩ := append_of_mem member
  rw [streamOf_append, streamOf_cons, length_append, length_append]
  omega

theorem Swallows.length (fits : ∀ offer ∈ offers, offer.Fits) (swallows : Swallows written (offers.map Prod.snd)) :
    0 < (streamOf offers).length ∧ headerLen ≤ written + (streamOf offers).length := by
  cases cut : cutBytes (offers.map Prod.snd) with
  | some following =>
    rw [(cutBytes_spec fits cut).1]
    exact swallows following cut
  | none =>
    obtain ⟨frame, member⟩ : ∃ frame, (frame, .whole) ∈ offers := by
      clear swallows fits
      induction offers with
      | nil => cases cut
      | cons offer offers ih =>
        obtain ⟨frame, write⟩ := offer
        cases write with
        | whole => exact ⟨frame, mem_cons_self⟩
        | cut written =>
          rw [map_cons, cutBytes, Option.map_eq_none_iff] at cut
          obtain ⟨frame, member⟩ := ih cut
          exact ⟨frame, mem_cons_of_mem _ member⟩
    have long := streamOf_length_of_mem member
    have header : headerLen = 13 := rfl
    rw [Offer.bytes, Write.put, length_encodeFrame] at long
    omega

theorem zeroQueue_harmed
    (possible : ∀ offers ∈ schedule, ∀ written, .cut written ∈ offers.writes → written < headerLen + maxPayload)
    (harmful : harmless (schedule.flatMap Offers.writes) = false) :
    ∃ bogus ∈ framesOf (portStream (zeroQueue schedule)), ¬ Zero bogus := by
  have fits := offersOf_fits (zeroQueue_possible possible)
  have writes := offersOf_writes (zeroQueue schedule)
  rw [zeroQueue_snd] at writes
  rw [← writes] at harmful
  obtain ⟨beforeWrites, written, afterWrites, split, shorts, large, swallows⟩ := first_harmful harmful
  obtain ⟨before, rest, offers, rfl, listed⟩ := map_eq_append_iff.mp split
  obtain ⟨⟨frame, write⟩, after, rfl, cut, rfl⟩ := map_eq_cons_iff.mp listed
  cases cut
  have shortOffers : ∀ offer ∈ before, offer.2.short := fun offer member => shorts offer.2 (mem_map_of_mem member)
  rw [portStream_eq, offers]
  rw [offers] at fits
  obtain ⟨some, header⟩ := swallows.length fun offer member =>
    fits offer (mem_append_right _ (mem_cons_of_mem _ member))
  refine swallowed fits shortOffers large (ne_nil_of_length_pos some) ?_
  have thirteen : headerLen = 13 := rfl
  rcases Nat.eq_zero_or_pos frame.payload.length with empty | payload
  · omega
  have member : (frame, .cut written) ∈ offersOf (zeroQueue schedule) := by
    rw [offers]
    simp
  have reaches : (frame, .cut (12 + frame.payload.length)) ∈ offersOf (zeroQueue schedule) :=
    zeroQueue_reaches member payload
  rw [offers] at reaches
  rcases mem_append.mp reaches with early | late
  · have short : 12 + frame.payload.length ≤ 8 := shortOffers _ early
    omega
  rcases mem_cons.mp late with same | later
  · have exact : 12 + frame.payload.length = written := by simpa using same
    omega
  have long := streamOf_length_of_mem later
  rw [(fits _ (mem_append_right _ (mem_cons_of_mem _ later))).length_cut] at long
  omega

/-! ## Delivery -/

theorem Delivered.queued {frames : List Frame} (delivered : Delivered queue frames) :
    ∀ frame ∈ frames, ∃ entry ∈ queue, entry.1 = frame := by
  induction delivered with
  | nil => simp
  | frame _ ih =>
    intro frame member
    rcases mem_cons.mp member with rfl | member
    · exact ⟨_, mem_cons_self, rfl⟩
    · obtain ⟨entry, queued, same⟩ := ih frame member
      exact ⟨entry, mem_cons_of_mem _ queued, same⟩
  | dropped _ _ ih =>
    intro frame member
    obtain ⟨entry, queued, same⟩ := ih frame member
    exact ⟨entry, mem_cons_of_mem _ queued, same⟩

theorem wholesOf_append (before after : List Offer) :
    wholesOf (before ++ after) = wholesOf before ++ wholesOf after := by
  simp [wholesOf]

theorem wholesOf_offers (frame : Frame) (writes : List Write) :
    wholesOf (writes.map (frame, ·)) = replicate (writes.count .whole) frame := by
  induction writes with
  | nil => rfl
  | cons write writes ih =>
    rw [map_cons]
    cases write with
    | cut written => rw [wholesOf_cons_cut, ih, count_cons_of_ne (by simp)]
    | whole => rw [wholesOf_cons_whole, ih, count_cons_self, replicate_succ]

theorem wholesOf_queue (entry : Frame × Offers) (queue : List (Frame × Offers)) :
    wholesOf (offersOf (entry :: queue)) =
      replicate (entry.2.writes.count .whole) entry.1 ++ wholesOf (offersOf queue) := by
  rw [offersOf, flatMap_cons, wholesOf_append, wholesOf_offers]
  rfl

theorem delivered_wholes (once : ∀ entry ∈ queue, entry.2.once = true) :
    Delivered queue (wholesOf (offersOf queue)) := by
  induction queue with
  | nil => exact .nil
  | cons entry queue ih =>
    have rest := ih fun other member => once other (mem_cons_of_mem _ member)
    have here := once entry mem_cons_self
    rw [wholesOf_queue]
    rw [Offers.once] at here
    split at here
    · next cancelled =>
      rcases Nat.le_one_iff_eq_zero_or_eq_one.mp (of_decide_eq_true here) with none | one
      · rw [none]
        exact .dropped cancelled rest
      · rw [one]
        exact .frame rest
    · rw [of_decide_eq_true here]
      exact .frame rest

theorem Delivered.countP_le {frames : List Frame} (delivered : Delivered queue frames) (marked : Frame → Bool) :
    frames.countP marked ≤ queue.countP (marked ·.1) ∧
      queue.countP (fun entry => marked entry.1 && entry.2.ending ≠ .cancelled) ≤ frames.countP marked := by
  induction delivered with
  | nil => exact ⟨le_rfl, le_rfl⟩
  | frame _ ih =>
    obtain ⟨most, least⟩ := ih
    simp only [countP_cons, Bool.and_eq_true]
    refine ⟨by omega, ?_⟩
    split
    · next both =>
      rw [if_pos both.1]
      omega
    · omega
  | dropped cancelled _ ih =>
    simp only [countP_cons, cancelled]
    refine ⟨?_, ?_⟩
    · omega
    · simpa using ih.2

/-- A frame of its own kind in a queue of zeros arrives as often as it was put on the wire as a whole. -/
theorem once_of_delivered {before after : List Offers} {offers : Offers}
    (delivered : Delivered (zeroQueue before ++ (zeroFrame .dataErr offers, offers) :: zeroQueue after)
      (wholesOf (offersOf (zeroQueue before ++ (zeroFrame .dataErr offers, offers) :: zeroQueue after)))) :
    offers.once = true := by
  have unmarked (schedule : List Offers) : (wholesOf (offersOf (zeroQueue schedule))).countP (·.kind = .dataErr) = 0 := by
    induction schedule with
    | nil => rfl
    | cons first schedule ih => simpa [zeroQueue, wholesOf_queue, zeroFrame] using ih
  have unqueued (schedule : List Offers) (wanted : Frame × Offers → Bool) :
      (zeroQueue schedule).countP (fun entry => entry.1.kind = .dataErr && wanted entry) = 0 := by
    simp [zeroQueue, countP_eq_zero, zeroFrame]
  have arrived : (wholesOf (offersOf (zeroQueue before ++ (zeroFrame .dataErr offers, offers) :: zeroQueue after))).countP
      (·.kind = .dataErr) = offers.writes.count .whole := by
    rw [offersOf, flatMap_append, wholesOf_append, ← offersOf, ← offersOf, wholesOf_queue, countP_append, countP_append,
      unmarked, unmarked]
    simp [zeroFrame, countP_replicate]
  obtain ⟨most, least⟩ := delivered.countP_le (·.kind = .dataErr)
  have none := unqueued before fun _ => true
  have noneAfter := unqueued after fun _ => true
  simp only [Bool.and_true] at none noneAfter
  rw [arrived, countP_append, countP_cons, none, noneAfter] at most
  rw [arrived, countP_append, countP_cons, unqueued, unqueued] at least
  rw [Offers.once]
  split
  · simpa [zeroFrame] using most
  · next sent =>
    rw [if_pos (by simpa [zeroFrame] using sent)] at least
    rw [if_pos (by rfl)] at most
    exact decide_eq_true (by omega)

/-- Whatever the frames are and however the host reads, every frame that was not cancelled arrives once, in order
and unaltered, exactly where every frame is put on the wire as a whole once (a cancelled one at most once) and no offer
that was cut short reaches past the kind of its frame with enough behind it to fill a frame. -/
theorem portWriter_delivers_iff (schedule : List Offers)
    (possible : ∀ offers ∈ schedule, ∀ written, .cut written ∈ offers.writes → written < headerLen + maxPayload) :
    (∀ queue pieces, queue.map Prod.snd = schedule → (∀ entry ∈ queue, Possible entry) →
      pieces.flatten = portStream queue → Delivered queue (decodePieces [] pieces)) ↔
      (∀ offers ∈ schedule, offers.once = true) ∧ harmless (schedule.flatMap Offers.writes) = true := by
  constructor
  · intro delivers
    have safe : harmless (schedule.flatMap Offers.writes) = true := by
      have delivered := delivers (zeroQueue schedule) [portStream (zeroQueue schedule)] (zeroQueue_snd schedule)
        (zeroQueue_possible possible) (by simp)
      rw [decodePieces_eq, flatten_singleton] at delivered
      rw [← Bool.not_eq_false]
      intro harmful
      obtain ⟨bogus, decoded, notZero⟩ := zeroQueue_harmed possible harmful
      obtain ⟨entry, queued, rfl⟩ := delivered.queued bogus decoded
      obtain ⟨offers, scheduled, rfl⟩ := mem_map.mp queued
      exact notZero (zeroFrame_zero .data offers)
    refine ⟨fun offers scheduled => ?_, safe⟩
    obtain ⟨before, after, rfl⟩ := append_of_mem scheduled
    let queue := zeroQueue before ++ (zeroFrame .dataErr offers, offers) :: zeroQueue after
    have same : queue.map Prod.snd = before ++ offers :: after := by simp [queue, zeroQueue_snd]
    have fits : ∀ entry ∈ queue, Possible entry := by
      rw [forall_mem_append, forall_mem_cons]
      obtain ⟨first, here, last⟩ : _ ∧ _ ∧ _ := by simpa only [forall_mem_append, forall_mem_cons] using possible
      exact ⟨zeroQueue_possible first, zeroFrame_possible .dataErr here, zeroQueue_possible last⟩
    have delivered := delivers queue [portStream queue] same fits (by simp)
    rw [← same, ← offersOf_writes] at safe
    rw [decodePieces_eq, flatten_singleton, portStream_eq, framesOf_harmless (offersOf_fits fits) safe] at delivered
    exact once_of_delivered delivered
  · rintro ⟨once, safe⟩ queue pieces rfl fits received
    rw [← offersOf_writes] at safe
    rw [decodePieces_eq, received, portStream_eq, framesOf_harmless (offersOf_fits fits) safe]
    exact delivered_wholes fun entry queued => once entry.2 (mem_map_of_mem queued)

/-- Two refused offers of eight and of three bytes are skipped, and the frame arrives. The frame before it was put on
the wire by a write that failed, and then cancelled. -/
theorem portWriter_delivers_short_cuts :
    let schedule : List Offers := [⟨[.whole], .cancelled⟩, ⟨[.cut 8, .cut 3], .sent⟩, ⟨[], .sent⟩]
    ∀ queue pieces, queue.map Prod.snd = schedule → (∀ entry ∈ queue, Possible entry) →
      pieces.flatten = portStream queue → Delivered queue (decodePieces [] pieces) := by
  intro schedule
  refine (portWriter_delivers_iff schedule ?_).mpr ⟨by decide, by decide⟩
  simp [schedule, Offers.writes, Ending.writes, headerLen, maxPayload]

/-- A refused offer that had put the header and one byte on the wire: the host decodes that header with the next
magic as its payload, and the frame never arrives. -/
theorem refused_offer_garbles_frame :
    (∀ entry ∈ [((⟨.data, 0, [1, 2]⟩ : Frame), (⟨[.cut 14], .sent⟩ : Offers))], Possible entry) ∧
      decodePieces [] [portStream [(⟨.data, 0, [1, 2]⟩, ⟨[.cut 14], .sent⟩)]] = [⟨.data, 0, [1, 0x56]⟩] ∧
      ¬ Delivered [(⟨.data, 0, [1, 2]⟩, ⟨[.cut 14], .sent⟩)] [⟨.data, 0, [1, 0x56]⟩] := by
  refine ⟨?_, by decide +kernel, ?_⟩
  · intro entry member
    cases mem_singleton.mp member
    refine ⟨by decide, ?_⟩
    intro written cut
    have same : written = 14 := by simpa [Offers.writes, Ending.writes] using cut
    subst same
    decide
  intro delivered
  obtain ⟨entry, queued, same⟩ := delivered.queued _ mem_cons_self
  cases mem_singleton.mp queued
  exact absurd same (by decide)

end Vmlab.Agent
