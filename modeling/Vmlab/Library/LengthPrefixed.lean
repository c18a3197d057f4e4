import Vmlab.Library.Bytes

/-!
# Length-prefixed framing

A big-endian length of `width` bytes followed by that many body bytes. The reference reader consumes one byte at a
time; decoders that look at larger pieces are compared with it.
-/

namespace Vmlab.Library.LengthPrefixed

open List

variable {frames : List (List UInt8)} {consumed : Nat}

def encode (width : Nat) (frame : List UInt8) : List UInt8 := toBigEndian width frame.length ++ frame

def stream (width : Nat) (frames : List (List UInt8)) : List UInt8 := frames.flatMap (encode width)

inductive Position where
  | inPrefix (seen : List UInt8)
  | inBody (missing : Nat)
  deriving DecidableEq

abbrev Position.boundary : Position := .inPrefix []

def afterPrefix (length : Nat) : Position := if length = 0 then .boundary else .inBody length

def advance (width : Nat) : Position → UInt8 → Position
  | .inPrefix seen, byte =>
    if seen.length + 1 < width then .inPrefix (seen ++ [byte])
    else afterPrefix (bigEndian (seen ++ [byte]))
  | .inBody missing, _ => afterPrefix (missing - 1)

def scan (width : Nat) (position : Position) (piece : List UInt8) : Position := piece.foldl (advance width) position

def prefixesStarted (width : Nat) : Position → List UInt8 → Nat
  | _, [] => 0
  | position, byte :: rest =>
    (if position = .boundary then 1 else 0) + prefixesStarted width (advance width position byte) rest

/-- How many length prefixes a piece holds bytes of: those that begin inside
it, and the one it continues. -/
def prefixesTouched (width : Nat) : Position → List UInt8 → Nat
  | .inPrefix (first :: seen), byte :: rest =>
    1 + prefixesStarted width (.inPrefix (first :: seen)) (byte :: rest)
  | position, piece => prefixesStarted width position piece

def lengthsRead (width : Nat) : Position → List UInt8 → List Nat
  | _, [] => []
  | .inPrefix seen, byte :: rest =>
    (if seen.length + 1 < width then [] else [bigEndian (seen ++ [byte])]) ++
      lengthsRead width (advance width (.inPrefix seen) byte) rest
  | .inBody missing, byte :: rest => lengthsRead width (advance width (.inBody missing) byte) rest

def position (width : Nat) : List (List UInt8) → Nat → Position
  | [], _ => .boundary
  | frame :: frames, consumed =>
    if consumed < width then .inPrefix ((encode width frame).take consumed)
    else if consumed < width + frame.length then .inBody (width + frame.length - consumed)
    else position width frames (consumed - (width + frame.length))

def framesBegun (width : Nat) : List (List UInt8) → Nat → List (List UInt8)
  | [], _ => []
  | frame :: frames, consumed =>
    if consumed = 0 then []
    else frame :: framesBegun width frames (consumed - (width + frame.length))

variable {width : Nat}

@[simp] theorem length_encode (frame : List UInt8) : (encode width frame).length = width + frame.length := by
  simp [encode]

@[simp] theorem stream_nil : stream width [] = [] := rfl

@[simp] theorem stream_cons (frame : List UInt8) (frames : List (List UInt8)) :
    stream width (frame :: frames) = encode width frame ++ stream width frames := by
  simp [stream]

theorem stream_append (left right : List (List UInt8)) :
    stream width (left ++ right) = stream width left ++ stream width right := by
  simp [stream]

@[simp] theorem afterPrefix_zero : afterPrefix 0 = .boundary := rfl

theorem afterPrefix_of_pos {length : Nat} (positive : 0 < length) : afterPrefix length = .inBody length := by
  simp [afterPrefix, Nat.pos_iff_ne_zero.mp positive]

@[simp] theorem scan_nil (start : Position) : scan width start [] = start := rfl

theorem scan_cons (start : Position) (byte : UInt8) (rest : List UInt8) :
    scan width start (byte :: rest) = scan width (advance width start byte) rest := rfl

theorem scan_append (start : Position) (left right : List UInt8) :
    scan width start (left ++ right) = scan width (scan width start left) right := by
  simp [scan]

theorem scan_afterPrefix (missing : Nat) (piece : List UInt8) (short : piece.length ≤ missing) :
    scan width (afterPrefix missing) piece = afterPrefix (missing - piece.length) := by
  induction piece generalizing missing with
  | nil => simp
  | cons byte rest ih =>
    have positive : 0 < missing := by simp at short; omega
    have tail := ih (missing - 1) (by simp at short; omega)
    rw [scan_cons, afterPrefix_of_pos positive, advance, tail, length_cons]
    congr 1
    omega

theorem scan_inPrefix_short (seen piece : List UInt8) (short : seen.length + piece.length < width) :
    scan width (.inPrefix seen) piece = .inPrefix (seen ++ piece) := by
  induction piece generalizing seen with
  | nil => simp
  | cons byte rest ih =>
    have step : advance width (.inPrefix seen) byte = .inPrefix (seen ++ [byte]) := by
      simp only [length_cons] at short
      simp only [advance, if_pos (show seen.length + 1 < width by omega)]
    rw [scan_cons, step, ih (seen ++ [byte]) (by simp at short ⊢; omega)]
    simp

theorem scan_inPrefix_complete {width : Nat} (seen piece : List UInt8) (started : seen.length < width)
    (complete : seen.length + piece.length = width) :
    scan width (.inPrefix seen) piece = afterPrefix (bigEndian (seen ++ piece)) := by
  rcases eq_nil_or_concat piece with rfl | ⟨front, last, rfl⟩
  · simp at complete
    omega
  rw [concat_eq_append] at complete ⊢
  simp only [length_append, length_singleton] at complete
  rw [scan_append, scan_inPrefix_short seen front (by omega), scan_cons, scan_nil, advance,
    if_neg (by simp only [length_append]; omega), append_assoc]

theorem scan_encode {frame : List UInt8} (positive : 0 < width) (fits : frame.length < 256 ^ width) :
    scan width .boundary (encode width frame) = .boundary := by
  rw [encode, scan_append, scan_inPrefix_complete [] _ positive (by simp), nil_append,
    bigEndian_toBigEndian fits, scan_afterPrefix _ _ le_rfl, Nat.sub_self, afterPrefix_zero]

theorem position_encode_add (frame : List UInt8) (frames : List (List UInt8)) (consumed : Nat) :
    position width (frame :: frames) (width + frame.length + consumed) = position width frames consumed := by
  rw [position, if_neg (by omega), if_neg (by omega)]
  congr 1
  omega

theorem scan_stream_take (positive : 0 < width)
    (fits : ∀ frame ∈ frames, frame.length < 256 ^ width) (consumed : Nat) :
    scan width .boundary ((stream width frames).take consumed) = position width frames consumed := by
  induction frames generalizing consumed with
  | nil => simp [position]
  | cons frame frames ih =>
    have headFits := fits frame (by simp)
    rw [stream_cons, position]
    split
    · next early =>
      rw [take_append_of_le_length (by simp only [length_encode]; omega),
        scan_inPrefix_short _ _ (by simp; omega), nil_append]
    split
    · next late early =>
      have cut : (encode width frame).take consumed =
          toBigEndian width frame.length ++ frame.take (consumed - width) := by
        rw [encode, take_append, length_toBigEndian, take_of_length_le (by simp only [length_toBigEndian]; omega)]
      have taken : (frame.take (consumed - width)).length = consumed - width := by
        rw [length_take]
        omega
      rw [take_append_of_le_length (by simp only [length_encode]; omega), cut, scan_append,
        scan_inPrefix_complete [] _ positive (by simp), nil_append,
        bigEndian_toBigEndian headFits, scan_afterPrefix _ _ (by omega), taken,
        afterPrefix_of_pos (by omega)]
      congr 1
      omega
    · next late =>
      rw [take_append, take_of_length_le (by simp only [length_encode]; omega), scan_append,
        scan_encode positive headFits, length_encode]
      exact ih (fun other member => fits other (by simp [member])) _

theorem position_zero (frames : List (List UInt8)) (positive : 0 < width) : position width frames 0 = .boundary := by
  cases frames with
  | nil => rfl
  | cons frame frames => simp [position, positive]

theorem position_stream_length (width : Nat) (done rest : List (List UInt8)) (positive : 0 < width) :
    position width (done ++ rest) (stream width done).length = .boundary := by
  induction done with
  | nil => exact position_zero rest positive
  | cons frame done ih =>
    rw [cons_append, stream_cons, length_append, length_encode, position_encode_add]
    exact ih

theorem split_of_position_boundary
    (inside : consumed ≤ (stream width frames).length) (boundary : position width frames consumed = .boundary) :
    ∃ done rest, frames = done ++ rest ∧ (stream width done).length = consumed := by
  induction frames generalizing consumed with
  | nil => exact ⟨[], [], rfl, by simpa using inside.antisymm (Nat.zero_le _) |>.symm⟩
  | cons frame frames ih =>
    rw [position] at boundary
    split at boundary
    · next early =>
      have empty := congrArg List.length (Position.inPrefix.inj boundary)
      simp only [length_take, length_encode, length_nil] at empty
      exact ⟨[], frame :: frames, rfl, by simp; omega⟩
    split at boundary
    · cases boundary
    · next late =>
      rw [stream_cons, length_append, length_encode] at inside
      obtain ⟨done, rest, rfl, length⟩ := ih (by omega) boundary
      exact ⟨frame :: done, rest, rfl, by simp [length]; omega⟩

theorem encode_append_injective {left right tail rest : List UInt8} (leftFits : left.length < 256 ^ width)
    (rightFits : right.length < 256 ^ width)
    (same : encode width left ++ tail = encode width right ++ rest) : left = right ∧ tail = rest := by
  simp only [encode, append_assoc] at same
  have heads := append_inj same (by simp)
  have lengths : left.length = right.length := by
    rw [← bigEndian_toBigEndian leftFits, ← bigEndian_toBigEndian rightFits, heads.1]
  exact append_inj heads.2 lengths

@[simp] theorem prefixesStarted_nil (start : Position) : prefixesStarted width start [] = 0 := by
  cases start <;> rfl

theorem prefixesStarted_append (start : Position) (left right : List UInt8) :
    prefixesStarted width start (left ++ right) =
      prefixesStarted width start left + prefixesStarted width (scan width start left) right := by
  induction left generalizing start with
  | nil => simp
  | cons byte left ih =>
    rw [cons_append, prefixesStarted, prefixesStarted, ih, scan_cons]
    omega

theorem prefixesTouched_inPrefix (seen : List UInt8) (byte : UInt8) (rest : List UInt8) :
    prefixesTouched width (.inPrefix seen) (byte :: rest) =
      1 + prefixesStarted width (advance width (.inPrefix seen) byte) rest := by
  cases seen with
  | nil => rfl
  | cons first seen => simp [prefixesTouched, prefixesStarted]

theorem prefixesTouched_boundary (piece : List UInt8) :
    prefixesTouched width .boundary piece = prefixesStarted width .boundary piece := by
  cases piece <;> rfl

theorem prefixesStarted_inPrefix (seen piece : List UInt8) (begun : seen ≠ [])
    (short : seen.length + piece.length ≤ width) : prefixesStarted width (.inPrefix seen) piece = 0 := by
  induction piece generalizing seen with
  | nil => rfl
  | cons byte rest ih =>
    simp only [length_cons] at short
    cases rest with
    | nil => simp [prefixesStarted, begun]
    | cons next rest =>
      simp only [length_cons] at short
      have step : advance width (.inPrefix seen) byte = .inPrefix (seen ++ [byte]) := by
        rw [advance, if_pos (by omega)]
      have tail := ih (seen ++ [byte]) (by simp) (by simp; omega)
      rw [prefixesStarted, step, tail]
      simp [begun]

theorem prefixesStarted_afterPrefix (missing : Nat) (piece : List UInt8)
    (short : piece.length ≤ missing) : prefixesStarted width (afterPrefix missing) piece = 0 := by
  induction piece generalizing missing with
  | nil => rfl
  | cons byte rest ih =>
    have positive : 0 < missing := by simp at short; omega
    have tail := ih (missing - 1) (by simp at short; omega)
    rw [afterPrefix_of_pos positive, prefixesStarted, advance, tail]
    simp

@[simp] theorem lengthsRead_nil (start : Position) : lengthsRead width start [] = [] := by
  cases start <;> rfl

theorem lengthsRead_append (start : Position) (left right : List UInt8) : lengthsRead width start (left ++ right) =
      lengthsRead width start left ++ lengthsRead width (scan width start left) right := by
  induction left generalizing start with
  | nil => simp
  | cons byte left ih =>
    cases start with
    | inPrefix seen =>
      simp only [cons_append, lengthsRead, ih, scan_cons, append_assoc]
    | inBody missing => simp only [cons_append, lengthsRead, ih, scan_cons]

theorem lengthsRead_inPrefix_complete (seen piece : List UInt8) (started : seen.length < width)
    (complete : seen.length + piece.length = width) :
    lengthsRead width (.inPrefix seen) piece = [bigEndian (seen ++ piece)] := by
  induction piece generalizing seen with
  | nil => simp at complete; omega
  | cons byte rest ih =>
    simp only [length_cons] at complete
    cases rest with
    | nil =>
      simp only [length_nil] at complete
      simp only [lengthsRead, if_neg (show ¬seen.length + 1 < width by omega), append_nil]
    | cons next rest =>
      simp only [length_cons] at complete
      have open' : seen.length + 1 < width := by omega
      have tail := ih (seen ++ [byte]) (by simp; omega) (by simp; omega)
      rw [lengthsRead, if_pos open', nil_append, advance, if_pos open', tail, append_assoc, singleton_append]

theorem lengthsRead_afterPrefix (missing : Nat) (piece : List UInt8) (short : piece.length ≤ missing) :
    lengthsRead width (afterPrefix missing) piece = [] := by
  induction piece generalizing missing with
  | nil => simp
  | cons byte rest ih =>
    have positive : 0 < missing := by simp at short; omega
    rw [afterPrefix_of_pos positive, lengthsRead, advance]
    exact ih (missing - 1) (by simp at short; omega)

theorem frame_tail {seen piece body : List UInt8} (rest : List UInt8) (started : seen.length < width)
    (complete : seen.length + piece.length = width) (whole : body.length = bigEndian (seen ++ piece)) :
    scan width (.inPrefix seen) (piece ++ (body ++ rest)) = scan width .boundary rest ∧
      lengthsRead width (.inPrefix seen) (piece ++ (body ++ rest)) =
        bigEndian (seen ++ piece) :: lengthsRead width .boundary rest ∧
      prefixesTouched width (.inPrefix seen) (piece ++ (body ++ rest)) =
        1 + prefixesTouched width .boundary rest := by
  have throughPrefix := scan_inPrefix_complete seen piece started complete
  have throughBody : scan width (afterPrefix (bigEndian (seen ++ piece))) body = .boundary := by
    rw [scan_afterPrefix _ _ (by omega), whole, Nat.sub_self, afterPrefix_zero]
  refine ⟨?_, ?_, ?_⟩
  · rw [scan_append, throughPrefix, scan_append, throughBody]
  · rw [lengthsRead_append, throughPrefix, lengthsRead_append, throughBody,
      lengthsRead_inPrefix_complete seen piece started complete,
      lengthsRead_afterPrefix _ _ (by omega), nil_append, singleton_append]
  cases piece with
  | nil => simp at complete; omega
  | cons byte piece =>
    simp only [length_cons] at complete
    have bodyStarts : prefixesStarted width (afterPrefix (bigEndian (seen ++ byte :: piece)))
        (body ++ rest) = prefixesStarted width .boundary rest := by
      rw [prefixesStarted_append, throughBody, prefixesStarted_afterPrefix _ _ (by omega), Nat.zero_add]
    rw [cons_append, prefixesTouched_inPrefix, prefixesTouched_boundary,
      prefixesStarted_append, ← scan_cons, throughPrefix, bodyStarts]
    cases piece with
    | nil => simp
    | cons next piece =>
      simp only [length_cons] at complete
      rw [advance, if_pos (by omega), prefixesStarted_inPrefix _ _ (by simp) (by simp; omega), Nat.zero_add]

theorem body_tail {missing : Nat} {body rest : List UInt8} (positive : 0 < missing) (whole : body.length = missing) :
    scan width (.inBody missing) (body ++ rest) = scan width .boundary rest ∧
      lengthsRead width (.inBody missing) (body ++ rest) = lengthsRead width .boundary rest ∧
      prefixesTouched width (.inBody missing) (body ++ rest) = prefixesTouched width .boundary rest := by
  have through : scan width (.inBody missing) body = .boundary := by
    rw [← afterPrefix_of_pos positive, scan_afterPrefix _ _ (by omega), whole, Nat.sub_self, afterPrefix_zero]
  have unread : lengthsRead width (.inBody missing) body = [] := by
    rw [← afterPrefix_of_pos positive, lengthsRead_afterPrefix _ _ (by omega)]
  have unstarted : prefixesStarted width (.inBody missing) body = 0 := by
    rw [← afterPrefix_of_pos positive, prefixesStarted_afterPrefix _ _ (by omega)]
  refine ⟨?_, ?_, ?_⟩
  · rw [scan_append, through]
  · rw [lengthsRead_append, through, unread, nil_append]
  have plain : prefixesTouched width (.inBody missing) (body ++ rest) =
      prefixesStarted width (.inBody missing) (body ++ rest) := by
    unfold prefixesTouched
    rfl
  rw [plain, prefixesTouched_boundary, prefixesStarted_append, through, unstarted, Nat.zero_add]

theorem mem_lengthsRead_stream (positive : 0 < width)
    (fits : ∀ frame ∈ frames, frame.length < 256 ^ width) {length : Nat}
    (read : length ∈ lengthsRead width .boundary (stream width frames)) :
    ∃ frame ∈ frames, frame.length = length := by
  induction frames with
  | nil => simp at read
  | cons frame frames ih =>
    have headFits := fits frame (by simp)
    rw [stream_cons, lengthsRead_append, scan_encode positive headFits, encode, lengthsRead_append,
      lengthsRead_inPrefix_complete [] _ positive (by simp),
      scan_inPrefix_complete [] _ positive (by simp), nil_append, bigEndian_toBigEndian headFits,
      lengthsRead_afterPrefix _ _ le_rfl, append_nil, singleton_append,
      mem_cons] at read
    rcases read with rfl | later
    · exact ⟨frame, by simp, rfl⟩
    · obtain ⟨found, member, same⟩ := ih (fun other member => fits other (by simp [member])) later
      exact ⟨found, by simp [member], same⟩

theorem framesBegun_isPrefix (width : Nat) (frames : List (List UInt8)) (consumed : Nat) :
    framesBegun width frames consumed <+: frames := by
  induction frames generalizing consumed with
  | nil => simp [framesBegun]
  | cons frame frames ih =>
    rw [framesBegun]
    split
    · exact nil_prefix
    · exact prefix_cons_inj frame |>.mpr (ih _)

theorem framesBegun_mono (width : Nat) (frames : List (List UInt8)) {fewer more : Nat} (le : fewer ≤ more) :
    framesBegun width frames fewer <+: framesBegun width frames more := by
  induction frames generalizing fewer more with
  | nil => simp [framesBegun]
  | cons frame frames ih =>
    rw [framesBegun, framesBegun]
    split
    · exact nil_prefix
    · rw [if_neg (by omega)]
      exact prefix_cons_inj frame |>.mpr (ih (by omega))

theorem le_length_stream_framesBegun (inside : consumed ≤ (stream width frames).length) :
    consumed ≤ (stream width (framesBegun width frames consumed)).length := by
  induction frames generalizing consumed with
  | nil => simpa [framesBegun] using inside
  | cons frame frames ih =>
    rw [framesBegun]
    split
    · omega
    rw [stream_cons, length_append, length_encode] at inside ⊢
    have tail := @ih (consumed - (width + frame.length)) (by omega)
    omega

theorem length_stream_framesBegun (positive : 0 < width) (inside : consumed ≤ (stream width frames).length)
    (boundary : position width frames consumed = .boundary) :
    (stream width (framesBegun width frames consumed)).length = consumed := by
  obtain ⟨done, rest, rfl, rfl⟩ := split_of_position_boundary inside boundary
  clear boundary inside
  induction done with
  | nil => cases rest <;> simp [framesBegun]
  | cons frame done ih =>
    rw [cons_append, framesBegun, if_neg (by simp; omega)]
    rw [stream_cons, length_append, stream_cons, length_append, length_encode, Nat.add_sub_cancel_left, ih]

theorem piece_append_missing {before piece after : List UInt8}
    (cut : before ++ (piece ++ after) = stream width frames) : ∃ between,
      framesBegun width frames (before ++ piece).length = framesBegun width frames before.length ++ between ∧
      piece ++ (stream width (framesBegun width frames (before ++ piece).length)).drop (before ++ piece).length =
        (stream width (framesBegun width frames before.length)).drop before.length ++ stream width between := by
  obtain ⟨between, grown⟩ := framesBegun_mono width frames
    (show before.length ≤ (before ++ piece).length by simp)
  refine ⟨between, grown.symm, ?_⟩
  have insideBefore : before.length ≤ (stream width frames).length := by simp [← cut]
  have insidePiece : (before ++ piece).length ≤ (stream width frames).length := by simp [← cut]
  have reachBefore := le_length_stream_framesBegun insideBefore
  have reachPiece := le_length_stream_framesBegun insidePiece
  -- The frames begun are an initial part of the stream that contains the piece.
  obtain ⟨rest, all⟩ := framesBegun_isPrefix width frames (before ++ piece).length
  have front : before ++ piece <+: stream width (framesBegun width frames (before ++ piece).length) := by
    have whole : before ++ piece <+: stream width frames := by
      rw [← cut, ← append_assoc]
      exact prefix_append ..
    have begun : stream width (framesBegun width frames (before ++ piece).length) <+: stream width frames := by
      nth_rewrite 2 [← all]
      rw [stream_append]
      exact prefix_append ..
    exact prefix_of_prefix_length_le whole begun reachPiece
  obtain ⟨missing, shape⟩ := front
  have tail : (stream width (framesBegun width frames (before ++ piece).length)).drop
      (before ++ piece).length = missing := by
    rw [← shape, drop_left' rfl]
  have whole : piece ++ missing =
      (stream width (framesBegun width frames (before ++ piece).length)).drop before.length := by
    rw [← shape, append_assoc, drop_left' rfl]
  rw [tail, whole, ← grown, stream_append, drop_append_of_le_length reachBefore]

end Vmlab.Library.LengthPrefixed
