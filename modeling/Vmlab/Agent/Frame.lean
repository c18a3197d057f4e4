import Vmlab.Library.Bytes

/-!
# The frames of the agent channel

A frame is a magic, a little-endian length, a kind, a little-endian channel and the payload. The decoder skips
what it cannot read as a header and looks for the next magic.
-/

namespace Vmlab.Agent

open Library List

def maxPayload : Nat := 64 * 1024

def magic : List UInt8 := [0x56, 0x4D, 0x4C, 0x42]

def headerLen : Nat := 4 + 4 + 1 + 4

def initialWindow : Nat := 256 * 1024

inductive FrameKind where
  | ctrl
  | data
  | dataErr
  deriving DecidableEq

def FrameKind.toU8 : FrameKind → UInt8
  | .ctrl => 0
  | .data => 1
  | .dataErr => 2

def FrameKind.fromU8 (byte : UInt8) : Option FrameKind :=
  if byte = 0 then some .ctrl
  else if byte = 1 then some .data
  else if byte = 2 then some .dataErr
  else none

structure Frame where
  kind : FrameKind
  channel : UInt32
  payload : List UInt8
  deriving DecidableEq

def toLe32 (value : Nat) : List UInt8 := (toBigEndian 4 value).reverse

def fromLe32 (bytes : List UInt8) : Nat := bigEndian bytes.reverse

/-- One frame on the wire. The code refuses a payload above `maxPayload` by panicking. -/
def encodeFrame (frame : Frame) : List UInt8 :=
  magic ++ toLe32 frame.payload.length ++ [frame.kind.toU8] ++ toLe32 frame.channel.toNat ++ frame.payload

def findMagic : List UInt8 → Option Nat
  | [] => none
  | byte :: rest => if magic.isPrefixOf (byte :: rest) then some 0 else (findMagic rest).map (· + 1)

def plausibleHeader (buf : List UInt8) : Option (FrameKind × Nat) :=
  let len := fromLe32 (window buf 4 4)
  match (buf[8]?).bind FrameKind.fromU8 with
  | some kind => if len ≤ maxPayload then some (kind, len) else none
  | none => none

def nextFrameLoop : Nat → List UInt8 → Option Frame × List UInt8
  | 0, buf => (none, buf)
  | turns + 1, buf =>
    match findMagic buf with
    | none => (none, buf.drop (buf.length - min buf.length (magic.length - 1)))
    | some off =>
      let buf := buf.drop off
      if buf.length < headerLen then
        (none, buf)
      else
        match plausibleHeader buf with
        | none => nextFrameLoop turns (buf.drop 1)
        | some (kind, len) =>
          if buf.length < headerLen + len then
            (none, buf)
          else
            (some ⟨kind, .ofNat (fromLe32 (window buf 9 4)), window buf headerLen len⟩, buf.drop (headerLen + len))

def nextFrame (buf : List UInt8) : Option Frame × List UInt8 := nextFrameLoop (buf.length + 1) buf

def drainFrames : Nat → List UInt8 → List Frame × List UInt8
  | 0, buf => ([], buf)
  | turns + 1, buf =>
    match nextFrame buf with
    | (none, buf) => ([], buf)
    | (some frame, buf) =>
      let (frames, buf) := drainFrames turns buf
      (frame :: frames, buf)

def feedDecoder (buf piece : List UInt8) : List Frame × List UInt8 :=
  drainFrames ((buf ++ piece).length + 1) (buf ++ piece)

/-- The frames that a receiver decodes from the pieces of a stream. -/
def decodePieces : List UInt8 → List (List UInt8) → List Frame
  | _, [] => []
  | buf, piece :: pieces =>
    let (frames, buf) := feedDecoder buf piece
    frames ++ decodePieces buf pieces

variable {buf rest : List UInt8} {kind : FrameKind} {len turns : Nat} {byte : UInt8} {frame : Frame}

/-! ## Little-endian numbers -/

@[simp] theorem length_toLe32 (value : Nat) : (toLe32 value).length = 4 := by
  simp [toLe32]

theorem fromLe32_toLe32 {value : Nat} (fits : value < 2 ^ 32) : fromLe32 (toLe32 value) = value := by
  rw [fromLe32, toLe32, reverse_reverse]
  exact bigEndian_toBigEndian fits

theorem fromLe32_injective {left right : List UInt8} (same : fromLe32 left = fromLe32 right)
    (length : left.length = right.length) : left = right := by
  have reversed := bigEndian_injective same (by simpa using length)
  simpa using reversed

@[simp] theorem fromU8_toU8 (kind : FrameKind) : FrameKind.fromU8 kind.toU8 = some kind := by
  cases kind <;> rfl

/-! ## One turn of the decoder -/

def scanFrame : List UInt8 → Option Frame × List UInt8
  | [] => (none, [])
  | byte :: rest =>
    let buf := byte :: rest
    if magic.isPrefixOf buf then
      if buf.length < headerLen then
        (none, buf)
      else
        match plausibleHeader buf with
        | none => scanFrame rest
        | some (kind, len) =>
          if buf.length < headerLen + len then
            (none, buf)
          else
            (some ⟨kind, .ofNat (fromLe32 (window buf 9 4)), window buf headerLen len⟩, buf.drop (headerLen + len))
    else if buf.length < magic.length then
      (none, buf)
    else
      scanFrame rest

def frameAt (kind : FrameKind) (len : Nat) (buf : List UInt8) : Frame :=
  ⟨kind, .ofNat (fromLe32 (window buf 9 4)), window buf headerLen len⟩

structure Header (buf : List UInt8) (kind : FrameKind) (len : Nat) : Prop where
  starts : magic.isPrefixOf buf = true
  long : headerLen ≤ buf.length
  names : plausibleHeader buf = some (kind, len)

theorem length_of_magic (starts : magic.isPrefixOf buf = true) : 4 ≤ buf.length := by
  rw [List.isPrefixOf_iff_prefix] at starts
  exact starts.length_le

theorem scanFrame_of_header (header : Header buf kind len) : scanFrame buf =
      if buf.length < headerLen + len then (none, buf) else (some (frameAt kind len buf), buf.drop (headerLen + len)) := by
  cases buf with
  | nil => exact absurd header.long (by decide)
  | cons byte rest =>
    have long := header.long
    rw [scanFrame, if_pos header.starts, if_neg (by omega), header.names]
    rfl

theorem scanFrame_short_header (starts : magic.isPrefixOf buf = true)
    (short : buf.length < headerLen) : scanFrame buf = (none, buf) := by
  cases buf with
  | nil => rfl
  | cons byte rest => rw [scanFrame, if_pos starts, if_pos short]

theorem scanFrame_few (few : buf.length < 4) : scanFrame buf = (none, buf) := by
  cases buf with
  | nil => rfl
  | cons byte rest =>
    have noMagic : ¬ magic.isPrefixOf (byte :: rest) = true := by
      intro starts
      have := length_of_magic starts
      omega
    have below : (byte :: rest).length < magic.length := few
    rw [scanFrame, if_neg noMagic, if_pos below]

theorem scanFrame_skip (noMagic : ¬ magic.isPrefixOf (byte :: rest) = true)
    (long : 3 ≤ rest.length) : scanFrame (byte :: rest) = scanFrame rest := by
  have enough : ¬ (byte :: rest).length < magic.length := by
    simp only [length_cons, magic, length_nil]
    omega
  rw [scanFrame, if_neg noMagic, if_neg enough]

theorem scanFrame_rejected (starts : magic.isPrefixOf (byte :: rest) = true)
    (long : headerLen ≤ (byte :: rest).length) (rejected : plausibleHeader (byte :: rest) = none) :
    scanFrame (byte :: rest) = scanFrame rest := by
  rw [scanFrame, if_pos starts, if_neg (by omega), rejected]

theorem scanFrame_cases (byte : UInt8) (rest : List UInt8) : (byte :: rest).length < 4 ∨
    (magic.isPrefixOf (byte :: rest) = true ∧ (byte :: rest).length < headerLen) ∨
    (∃ kind len, Header (byte :: rest) kind len) ∨ (3 ≤ rest.length ∧ ¬ magic.isPrefixOf (byte :: rest) = true) ∨
    (magic.isPrefixOf (byte :: rest) = true ∧ headerLen ≤ (byte :: rest).length ∧ plausibleHeader (byte :: rest) = none) := by
  by_cases starts : magic.isPrefixOf (byte :: rest) = true
  · by_cases long : headerLen ≤ (byte :: rest).length
    · cases named : plausibleHeader (byte :: rest) with
      | none => exact .inr (.inr (.inr (.inr ⟨starts, long, rfl⟩)))
      | some header => exact .inr (.inr (.inl ⟨header.1, header.2, starts, long, named⟩))
    · exact .inr (.inl ⟨starts, by omega⟩)
  by_cases few : (byte :: rest).length < 4
  · exact .inl few
  refine .inr (.inr (.inr (.inl ⟨?_, starts⟩)))
  rw [length_cons] at few
  omega

theorem findMagic_none (absent : findMagic buf = none) :
    scanFrame buf = (none, buf.drop (buf.length - min buf.length (magic.length - 1))) := by
  induction buf with
  | nil => rfl
  | cons byte rest ih =>
    rw [findMagic] at absent
    by_cases starts : magic.isPrefixOf (byte :: rest) = true
    · rw [if_pos starts] at absent
      cases absent
    rw [if_neg starts, Option.map_eq_none_iff] at absent
    by_cases long : 3 ≤ rest.length
    · have cut : (byte :: rest).length - min (byte :: rest).length (magic.length - 1) =
          (rest.length - min rest.length (magic.length - 1)) + 1 := by
        simp only [length_cons, magic, length_nil]
        omega
      rw [scanFrame_skip starts long, ih absent, cut, drop_succ_cons]
    have cut : (byte :: rest).length - min (byte :: rest).length (magic.length - 1) = 0 := by
      simp only [length_cons, magic, length_nil]
      omega
    rw [scanFrame_few (by rw [length_cons]; omega), cut, drop_zero]

theorem findMagic_some {off : Nat} (found : findMagic buf = some off) :
    magic.isPrefixOf (buf.drop off) = true ∧ scanFrame buf = scanFrame (buf.drop off) := by
  induction buf generalizing off with
  | nil => cases found
  | cons byte rest ih =>
    rw [findMagic] at found
    by_cases starts : magic.isPrefixOf (byte :: rest) = true
    · rw [if_pos starts, Option.some.injEq] at found
      subst found
      exact ⟨starts, rfl⟩
    rw [if_neg starts, Option.map_eq_some_iff] at found
    obtain ⟨before, later, rfl⟩ := found
    obtain ⟨startsLater, same⟩ := ih later
    have long := length_of_magic startsLater
    rw [length_drop] at long
    rw [drop_succ_cons]
    exact ⟨startsLater, (scanFrame_skip starts (by omega)).trans same⟩

theorem nextFrameLoop_eq (enough : buf.length < turns) : nextFrameLoop turns buf = scanFrame buf := by
  induction turns generalizing buf with
  | zero => omega
  | succ turns ih =>
    rw [nextFrameLoop]
    cases found : findMagic buf with
    | none => exact (findMagic_none found).symm
    | some off =>
      obtain ⟨starts, same⟩ := findMagic_some found
      rw [same]
      have shorter : (buf.drop off).length ≤ buf.length := by
        rw [length_drop]
        omega
      dsimp only
      generalize buf.drop off = front at starts shorter
      by_cases long : front.length < headerLen
      · rw [if_pos long, scanFrame_short_header starts long]
      rw [if_neg long]
      cases named : plausibleHeader front with
      | none =>
        cases front with
        | nil => cases starts
        | cons byte rest =>
          rw [scanFrame_rejected starts (by omega) named]
          rw [length_cons] at shorter
          exact ih (by rw [drop_one, tail_cons]; omega)
      | some header => exact (scanFrame_of_header ⟨starts, by omega, named⟩).symm

theorem nextFrame_eq (buf : List UInt8) : nextFrame buf = scanFrame buf := nextFrameLoop_eq (Nat.lt_succ_self _)

/-! ## More bytes behind -/

theorem magic_append (long : 4 ≤ buf.length) (more : List UInt8) :
    magic.isPrefixOf (buf ++ more) = magic.isPrefixOf buf := by
  rw [Bool.eq_iff_iff, isPrefixOf_iff_prefix, isPrefixOf_iff_prefix]
  constructor
  · intro starts
    exact prefix_of_prefix_length_le starts (prefix_append buf more) long
  · intro starts
    exact starts.trans (prefix_append buf more)

theorem window_append {start count : Nat} (inside : start + count ≤ buf.length)
    (more : List UInt8) : window (buf ++ more) start count = window buf start count := by
  have whole : window ((buf ++ more).take buf.length) start count = window (buf ++ more) start count :=
    window_take inside
  rw [take_left] at whole
  exact whole.symm

theorem plausible_append (long : headerLen ≤ buf.length) (more : List UInt8) :
    plausibleHeader (buf ++ more) = plausibleHeader buf := by
  have inside : 4 + 4 + 1 + 4 ≤ buf.length := long
  simp only [plausibleHeader]
  rw [window_append (by omega), getElem?_append_left (by omega)]

theorem Header.append (header : Header buf kind len) (more : List UInt8) : Header (buf ++ more) kind len where
  starts := by
    rw [magic_append (length_of_magic header.starts)]
    exact header.starts
  long := by
    have long := header.long
    rw [length_append]
    omega
  names := (plausible_append header.long more).trans header.names

theorem plausible_take (buf : List UInt8) : plausibleHeader (buf.take 9) = plausibleHeader buf := by
  simp only [plausibleHeader]
  rw [window_take (by omega), getElem?_take_of_lt (by omega)]

theorem Header.of_take {other : List UInt8} (header : Header buf kind len)
    (same : other.take 9 = buf.take 9) (long : headerLen ≤ other.length) : Header other kind len := by
  have enough : ∀ bytes : List UInt8, headerLen ≤ bytes.length → 4 ≤ (bytes.take 9).length := by
    intro bytes inside
    have header : headerLen = 13 := rfl
    rw [length_take]
    omega
  refine ⟨?_, long, ?_⟩
  · rw [← take_append_drop 9 other, magic_append (enough other long), same,
      ← magic_append (enough buf header.long) (buf.drop 9), take_append_drop]
    exact header.starts
  · rw [← plausible_take, same, plausible_take]
    exact header.names

theorem frameAt_append (inside : headerLen + len ≤ buf.length)
    (more : List UInt8) : frameAt kind len (buf ++ more) = frameAt kind len buf := by
  have header : 4 + 4 + 1 + 4 + len ≤ buf.length := inside
  rw [frameAt, frameAt, window_append (by omega), window_append inside]

theorem scanFrame_skip_append (noMagic : ¬ magic.isPrefixOf (byte :: rest) = true)
    (long : 3 ≤ rest.length) (more : List UInt8) : scanFrame (byte :: rest ++ more) = scanFrame (rest ++ more) := by
  rw [cons_append]
  refine scanFrame_skip ?_ (by rw [length_append]; omega)
  rw [← cons_append, magic_append (by rw [length_cons]; omega)]
  exact noMagic

theorem scanFrame_rejected_append
    (starts : magic.isPrefixOf (byte :: rest) = true) (long : headerLen ≤ (byte :: rest).length)
    (rejected : plausibleHeader (byte :: rest) = none) (more : List UInt8) :
    scanFrame (byte :: rest ++ more) = scanFrame (rest ++ more) := by
  rw [cons_append]
  refine scanFrame_rejected ?_ (by rw [← cons_append, length_append]; omega) ?_
  · rw [← cons_append, magic_append (length_of_magic starts)]
    exact starts
  · rw [← cons_append, plausible_append long]
    exact rejected

/-- The decoder skips to the first place where it has to wait or has a frame, whatever follows. -/
theorem scanFrame_front (buf : List UInt8) : ∃ front, front.length ≤ buf.length ∧
    (∀ more, scanFrame (buf ++ more) = scanFrame (front ++ more)) ∧
    (scanFrame front = (none, front) ∨ ∃ kind len, Header front kind len ∧ headerLen + len ≤ front.length) := by
  induction buf with
  | nil => exact ⟨[], le_rfl, fun _ => rfl, .inl rfl⟩
  | cons byte tail ih =>
    obtain ⟨front, shorter, same, ends⟩ := ih
    have shorter : front.length ≤ (byte :: tail).length := shorter.trans (by simp)
    rcases scanFrame_cases byte tail with few | ⟨starts, short⟩ | ⟨kind, len, header⟩ | ⟨long, noMagic⟩ |
      ⟨starts, long, rejected⟩
    · exact ⟨_, le_rfl, fun _ => rfl, .inl (scanFrame_few few)⟩
    · exact ⟨_, le_rfl, fun _ => rfl, .inl (scanFrame_short_header starts short)⟩
    · refine ⟨_, le_rfl, fun _ => rfl, ?_⟩
      by_cases incomplete : (byte :: tail).length < headerLen + len
      · exact .inl (by rw [scanFrame_of_header header, if_pos incomplete])
      · exact .inr ⟨kind, len, header, by omega⟩
    · exact ⟨front, shorter, fun more => (scanFrame_skip_append noMagic long more).trans (same more), ends⟩
    · exact ⟨front, shorter, fun more => (scanFrame_rejected_append starts long rejected more).trans (same more), ends⟩

theorem scanFrame_some (found : scanFrame buf = (some frame, rest)) : rest.length + headerLen ≤ buf.length ∧
    ∀ more, scanFrame (buf ++ more) = (some frame, rest ++ more) := by
  obtain ⟨front, shorter, same, waits | ⟨kind, len, header, complete⟩⟩ := scanFrame_front buf
  all_goals
    have here := same []
    rw [append_nil, append_nil, found] at here
  · rw [waits] at here
    cases here
  rw [scanFrame_of_header header, if_neg (by omega)] at here
  cases here
  refine ⟨by rw [length_drop]; omega, fun more => ?_⟩
  rw [same, scanFrame_of_header (header.append more), if_neg (by rw [length_append]; omega),
    frameAt_append complete, drop_append_of_le_length complete]

theorem scanFrame_none_append (waits : scanFrame buf = (none, rest)) (more : List UInt8) :
    scanFrame (buf ++ more) = scanFrame (rest ++ more) := by
  obtain ⟨front, _, same, still | ⟨kind, len, header, complete⟩⟩ := scanFrame_front buf
  all_goals
    have here := same []
    rw [append_nil, append_nil, waits] at here
  · rw [still] at here
    cases here
    exact same more
  · rw [scanFrame_of_header header, if_neg (by omega)] at here
    cases here

/-! ## Draining -/

theorem drainFrames_none (waits : scanFrame buf = (none, rest)) : drainFrames (turns + 1) buf = ([], rest) := by
  rw [drainFrames, nextFrame_eq, waits]

theorem drainFrames_some (found : scanFrame buf = (some frame, rest)) :
    drainFrames (turns + 1) buf = (frame :: (drainFrames turns rest).1, (drainFrames turns rest).2) := by
  rw [drainFrames, nextFrame_eq, found]

theorem drainFrames_enough {few many : Nat} (fewEnough : buf.length < few)
    (manyEnough : buf.length < many) : drainFrames few buf = drainFrames many buf := by
  induction few generalizing many buf with
  | zero => omega
  | succ few ih =>
    cases many with
    | zero => omega
    | succ many =>
      rcases scanned : scanFrame buf with ⟨_ | frame, rest⟩
      · rw [drainFrames_none scanned, drainFrames_none scanned]
      have shorter := (scanFrame_some scanned).1
      have header : 0 < headerLen := by decide
      have same : drainFrames few rest = drainFrames many rest := ih (by omega) (by omega)
      rw [drainFrames_some scanned, drainFrames_some scanned, same]

def drained (buf : List UInt8) : List Frame × List UInt8 := drainFrames (buf.length + 1) buf

theorem drained_none (waits : scanFrame buf = (none, rest)) : drained buf = ([], rest) := drainFrames_none waits

theorem drained_some (found : scanFrame buf = (some frame, rest)) :
    drained buf = (frame :: (drained rest).1, (drained rest).2) := by
  have shorter := (scanFrame_some found).1
  have header : 0 < headerLen := by decide
  have same : drainFrames buf.length rest = drained rest := drainFrames_enough (by omega) (by omega)
  rw [drained, drainFrames_some found, same]

theorem scanFrame_drained (buf : List UInt8) : scanFrame (drained buf).2 = (none, (drained buf).2) := by
  induction size : buf.length using Nat.strong_induction_on generalizing buf with
  | _ size ih =>
    rcases scanned : scanFrame buf with ⟨_ | frame, rest⟩
    · have again := scanFrame_none_append scanned []
      rw [append_nil, append_nil, scanned] at again
      rw [drained_none scanned]
      exact again.symm
    have shorter := (scanFrame_some scanned).1
    have header : 0 < headerLen := by decide
    rw [drained_some scanned]
    exact ih rest.length (by omega) rest rfl

theorem drained_append (buf more : List UInt8) :
    (drained (buf ++ more)).1 = (drained buf).1 ++ (drained ((drained buf).2 ++ more)).1 := by
  induction size : buf.length using Nat.strong_induction_on generalizing buf with
  | _ size ih =>
    rcases scanned : scanFrame buf with ⟨_ | frame, rest⟩
    · have same : (drained (buf ++ more)).1 = (drained (rest ++ more)).1 := by
        have extended := scanFrame_none_append scanned more
        rcases next : scanFrame (rest ++ more) with ⟨_ | frame, left⟩
        · rw [drained_none next, drained_none (extended.trans next)]
        · rw [drained_some next, drained_some (extended.trans next)]
      rw [same, drained_none scanned, nil_append]
    have shorter := (scanFrame_some scanned).1
    have header : 0 < headerLen := by decide
    rw [drained_some ((scanFrame_some scanned).2 more), drained_some scanned, cons_append,
      ih rest.length (by omega) rest rfl]

def framesOf (stream : List UInt8) : List Frame := (drained stream).1

theorem decodePieces_append (settled : scanFrame buf = (none, buf)) (pieces : List (List UInt8)) :
    decodePieces buf pieces = framesOf (buf ++ pieces.flatten) := by
  induction pieces generalizing buf with
  | nil =>
    rw [decodePieces, flatten_nil, append_nil, framesOf, drained_none settled]
  | cons piece pieces ih =>
    have split : decodePieces buf (piece :: pieces) =
        (drained (buf ++ piece)).1 ++ decodePieces (drained (buf ++ piece)).2 pieces := rfl
    rw [split, ih (scanFrame_drained _), flatten_cons, ← append_assoc, framesOf, framesOf,
      drained_append (buf ++ piece)]

theorem decodePieces_eq (pieces : List (List UInt8)) : decodePieces [] pieces = framesOf pieces.flatten :=
  decodePieces_append rfl pieces

/-! ## What a stream holds -/

theorem framesOf_congr {left right : List UInt8} (same : scanFrame left = scanFrame right) :
    framesOf left = framesOf right := by
  rcases scanned : scanFrame right with ⟨_ | frame, rest⟩
  · rw [framesOf, framesOf, drained_none scanned, drained_none (same.trans scanned)]
  · rw [framesOf, framesOf, drained_some scanned, drained_some (same.trans scanned)]

theorem framesOf_none (waits : scanFrame buf = (none, rest)) : framesOf buf = [] := by
  rw [framesOf, drained_none waits]

theorem framesOf_short {stream : List UInt8} (short : stream.length < headerLen) : framesOf stream = [] := by
  rcases scanned : scanFrame stream with ⟨_ | frame, rest⟩
  · exact framesOf_none scanned
  · have shorter := (scanFrame_some scanned).1
    omega

theorem framesOf_skip (none : ∀ kind len, ¬ Header (byte :: rest) kind len) :
    framesOf (byte :: rest) = framesOf rest := by
  have short : (byte :: rest).length < headerLen → framesOf (byte :: rest) = framesOf rest := by
    intro short
    rw [length_cons] at short
    rw [framesOf_short (by rw [length_cons]; exact short), framesOf_short (by omega)]
  rcases scanFrame_cases byte rest with few | ⟨starts, few⟩ | ⟨kind, len, header⟩ | ⟨long, noMagic⟩ |
    ⟨starts, long, rejected⟩
  · exact short (few.trans (by decide))
  · exact short few
  · exact absurd header (none kind len)
  · exact framesOf_congr (scanFrame_skip noMagic long)
  · exact framesOf_congr (scanFrame_rejected starts long rejected)

theorem framesOf_header (header : Header buf kind len) (complete : headerLen + len ≤ buf.length) :
    framesOf buf = frameAt kind len buf :: framesOf (buf.drop (headerLen + len)) := by
  have found := scanFrame_of_header header
  rw [if_neg (by omega)] at found
  rw [framesOf, drained_some found, framesOf]

theorem framesOf_incomplete (header : Header buf kind len)
    (incomplete : buf.length < headerLen + len) : framesOf buf = [] := by
  have waits := scanFrame_of_header header
  rw [if_pos incomplete] at waits
  exact framesOf_none waits

/-! ## Frames on the wire -/

section

variable (frame : Frame)

theorem encodeFrame_eq : encodeFrame frame =
      magic ++ (toLe32 frame.payload.length ++ (frame.kind.toU8 :: (toLe32 frame.channel.toNat ++ frame.payload))) := by
  simp [encodeFrame]

theorem length_encodeFrame : (encodeFrame frame).length = headerLen + frame.payload.length := by
  simp only [encodeFrame, length_append, length_toLe32, length_singleton, headerLen]
  rfl

variable (more : List UInt8)

theorem window_encodeFrame_length : window (encodeFrame frame ++ more) 4 4 = toLe32 frame.payload.length := by
  have front : magic.length = 4 := rfl
  rw [encodeFrame_eq, window, append_assoc, drop_left' front, append_assoc, take_left' (length_toLe32 _)]

theorem window_encodeFrame_channel : window (encodeFrame frame ++ more) 9 4 = toLe32 frame.channel.toNat := by
  have front : (magic ++ toLe32 frame.payload.length ++ [frame.kind.toU8]).length = 9 := by
    simp [magic]
  rw [encodeFrame, window, append_assoc, append_assoc, drop_left' front, take_left' (length_toLe32 _)]

theorem window_encodeFrame_payload :
    window (encodeFrame frame ++ more) headerLen frame.payload.length = frame.payload := by
  have front : (magic ++ toLe32 frame.payload.length ++ [frame.kind.toU8] ++
      toLe32 frame.channel.toNat).length = headerLen := by
    simp [magic, headerLen]
  rw [encodeFrame, window, append_assoc, drop_left' front, take_left' rfl]

theorem getElem?_encodeFrame_kind : (encodeFrame frame ++ more)[8]? = some frame.kind.toU8 := by
  have front : (magic ++ toLe32 frame.payload.length).length = 8 := by
    simp [magic]
  rw [encodeFrame, append_assoc, append_assoc, append_assoc, getElem?_append_right (by rw [front]), front]
  rfl

end

theorem maxPayload_lt : maxPayload < 2 ^ 32 := by
  decide

theorem encodeFrame_header (fits : frame.payload.length ≤ maxPayload) (more : List UInt8) :
    Header (encodeFrame frame ++ more) frame.kind frame.payload.length where
  starts := by
    rw [List.isPrefixOf_iff_prefix, encodeFrame_eq, append_assoc]
    exact prefix_append _ _
  long := by
    rw [length_append, length_encodeFrame]
    omega
  names := by
    have bound := maxPayload_lt
    simp only [plausibleHeader, window_encodeFrame_length, getElem?_encodeFrame_kind, Option.bind_some, fromU8_toU8,
      fromLe32_toLe32 (Nat.lt_of_le_of_lt fits bound), fits, if_true]

theorem frameAt_encodeFrame (frame : Frame) (more : List UInt8) :
    frameAt frame.kind frame.payload.length (encodeFrame frame ++ more) = frame := by
  rw [frameAt, window_encodeFrame_channel, window_encodeFrame_payload, fromLe32_toLe32 frame.channel.toNat_lt,
    UInt32.ofNat_toNat]

theorem framesOf_encodeFrame_append (fits : frame.payload.length ≤ maxPayload) (more : List UInt8) :
    framesOf (encodeFrame frame ++ more) = frame :: framesOf more := by
  have complete : headerLen + frame.payload.length ≤ (encodeFrame frame ++ more).length := by
    rw [length_append, length_encodeFrame]
    omega
  rw [framesOf_header (encodeFrame_header fits more) complete, frameAt_encodeFrame,
    drop_left' (length_encodeFrame frame)]

/-! ### Behind garbage the decoder reads the frames that begin after what it took for a header -/

/-- A control message, as JSON on channel 0. How a message is serialised is a parameter. -/
def encodeCtrl {Message : Type} (toVec : Message → Except String (List UInt8)) (message : Message) :
    Except String (List UInt8) :=
  match toVec message with
  | .error fault => .error fault
  | .ok payload =>
    if maxPayload < payload.length then
      .error s!"agent control payload is {payload.length} bytes; maximum is {maxPayload} bytes"
    else
      .ok (encodeFrame ⟨.ctrl, 0, payload⟩)

theorem encodeCtrl_ok_iff {Message : Type} {toVec : Message → Except String (List UInt8)} {message : Message}
    {bytes : List UInt8} : encodeCtrl toVec message = .ok bytes ↔
      ∃ payload, toVec message = .ok payload ∧ payload.length ≤ maxPayload ∧
        bytes = encodeFrame ⟨.ctrl, 0, payload⟩ := by
  rw [encodeCtrl]
  cases toVec message with
  | error fault => simp
  | ok payload =>
    dsimp only
    split
    · next long => simp [Nat.not_le.mpr long]
    · next fits => simp [Nat.le_of_not_lt fits, eq_comm]

def wire (frames : List Frame) : List UInt8 := frames.flatMap encodeFrame

/-- Every magic in the bytes of these frames is one that a frame begins with. -/
def MagicAtStarts (frames : List Frame) : Prop :=
  ∀ off, magic <+: (wire frames).drop off → ∃ early late, frames = early ++ late ∧ off = (wire early).length

@[simp] theorem wire_cons (frame : Frame) (frames : List Frame) :
    wire (frame :: frames) = encodeFrame frame ++ wire frames := by
  rw [wire, wire, flatMap_cons]

@[simp] theorem wire_append (early late : List Frame) : wire (early ++ late) = wire early ++ wire late := by
  rw [wire, wire, wire, flatMap_append]

theorem framesOf_wire {frames : List Frame} (fits : ∀ frame ∈ frames, frame.payload.length ≤ maxPayload) :
    framesOf (wire frames) = frames := by
  induction frames with
  | nil => rfl
  | cons frame frames ih =>
    rw [wire_cons, framesOf_encodeFrame_append (fits frame mem_cons_self),
      ih fun later member => fits later (mem_cons_of_mem frame member)]

theorem Header.len_le {buf : List UInt8} {kind : FrameKind} {len : Nat} (header : Header buf kind len) :
    len ≤ maxPayload := by
  have names := header.names
  simp only [plausibleHeader] at names
  split at names
  · split at names
    · next bounded =>
      cases names
      exact bounded
    · cases names
  · cases names

/-- The shorter the bytes in front, the more frames are left. -/
theorem suffix_of_wire_le {early late early' late' : List Frame} (same : early ++ late = early' ++ late')
    (shorter : (wire early).length ≤ (wire early').length) : late' <:+ late := by
  rcases append_eq_append_iff.mp same with ⟨between, rfl, rfl⟩ | ⟨between, rfl, rfl⟩
  · exact suffix_append between late'
  cases between with
  | nil => exact suffix_refl _
  | cons frame between =>
    rw [wire_append, wire_cons, length_append, length_append, length_encodeFrame] at shorter
    have header : headerLen = 13 := rfl
    omega

section

variable {early late : List Frame}

variable (fits : ∀ frame ∈ early ++ late, frame.payload.length ≤ maxPayload) (starts : MagicAtStarts (early ++ late))
include fits starts

/-- From any place in front of them, the decoder reaches the frames it is about to read: the next magic it finds is
the beginning of a frame. -/
theorem suffix_of_cut {cut : Nat} (before : cut ≤ (wire early).length) :
    late <:+ framesOf ((wire (early ++ late)).drop cut) := by
  induction left : (wire early).length - cut generalizing cut with
  | zero =>
    have whole : cut = (wire early).length := by omega
    subst whole
    rw [wire_append, drop_left]
    exact ⟨[], (framesOf_wire fun frame member => fits frame (mem_append_right early member)).symm⟩
  | succ left ih =>
    have inside : cut < (wire (early ++ late)).length := by
      rw [wire_append, length_append]
      omega
    by_cases found : magic <+: (wire (early ++ late)).drop cut
    · obtain ⟨early', late', same, rfl⟩ := starts cut found
      rw [same, wire_append, drop_left, framesOf_wire fun frame member =>
        fits frame (same ▸ mem_append_right early' member)]
      exact suffix_of_wire_le same.symm before
    rw [drop_eq_getElem_cons inside, framesOf_skip]
    · exact ih (by omega) (by omega)
    intro kind len header
    rw [← drop_eq_getElem_cons inside] at header
    exact found (List.isPrefixOf_iff_prefix.mp header.starts)

theorem suffix_behind_garbage (far : headerLen + maxPayload ≤ (wire early).length)
    (garbage : List UInt8) : late <:+ framesOf (garbage ++ wire (early ++ late)) := by
  induction size : garbage.length using Nat.strong_induction_on generalizing garbage with
  | _ size ih =>
    cases garbage with
    | nil => exact suffix_of_cut fits starts (Nat.zero_le _)
    | cons byte rest =>
      rw [length_cons] at size
      by_cases taken : ∃ kind len, Header (byte :: rest ++ wire (early ++ late)) kind len
      · obtain ⟨kind, len, header⟩ := taken
        have bounded := header.len_le
        have complete : headerLen + len ≤ (byte :: rest ++ wire (early ++ late)).length := by
          rw [length_append, wire_append, length_append]
          omega
        rw [framesOf_header header complete]
        refine suffix_cons_iff.mpr (.inr ?_)
        by_cases within : headerLen + len ≤ (byte :: rest).length
        · rw [drop_append_of_le_length within]
          have header : headerLen = 13 := rfl
          exact ih _ (by rw [length_drop, length_cons]; omega) _ rfl
        · rw [drop_append, drop_of_length_le (by omega), nil_append]
          exact suffix_of_cut fits starts (by omega)
      have skipped : framesOf (byte :: (rest ++ wire (early ++ late))) = framesOf (rest ++ wire (early ++ late)) :=
        framesOf_skip fun kind len header => taken ⟨kind, len, header⟩
      rw [cons_append, skipped]
      exact ih rest.length (by omega) rest rfl

end

/-- What a receiver makes of frames within the payload limit. A control message is sent as such a frame, exactly
where its text is within the limit; the frames are delivered as they were sent, however the stream is cut; and behind
any garbage, where a magic is only ever the beginning of a frame, every frame that begins a header and the longest
payload later is delivered. -/
theorem decoder_delivers_frames {Message : Type} (toVec : Message → Except String (List UInt8)) (frames : List Frame)
    (fits : ∀ frame ∈ frames, frame.payload.length ≤ maxPayload) :
    (∀ message bytes, encodeCtrl toVec message = .ok bytes ↔
      ∃ payload, toVec message = .ok payload ∧ payload.length ≤ maxPayload ∧
        bytes = encodeFrame ⟨.ctrl, 0, payload⟩) ∧
    (∀ pieces, pieces.flatten = wire frames → decodePieces [] pieces = frames) ∧
    (∀ left right : List (List UInt8), left.flatten = right.flatten → decodePieces [] left = decodePieces [] right) ∧
    (MagicAtStarts frames → ∀ garbage pieces early late, pieces.flatten = garbage ++ wire frames →
      frames = early ++ late → headerLen + maxPayload ≤ (wire early).length → late <:+ decodePieces [] pieces) := by
  refine ⟨fun message bytes => encodeCtrl_ok_iff, ?_, ?_, ?_⟩
  · intro pieces stream
    rw [decodePieces_eq, stream, framesOf_wire fits]
  · intro left right same
    rw [decodePieces_eq, decodePieces_eq, same]
  rintro starts garbage pieces early late stream rfl far
  rw [decodePieces_eq, stream]
  exact suffix_behind_garbage fits starts far garbage

/-- A magic begins with a byte that the rest of these frames does not have. -/
theorem magicAtStarts_of_tail {frames : List Frame} (clean : ∀ frame ∈ frames, 0x56 ∉ (encodeFrame frame).tail) :
    MagicAtStarts frames := by
  induction frames with
  | nil =>
    intro off found
    have long := found.length_le
    rw [length_drop] at long
    exact absurd long (by simp [wire, magic])
  | cons frame frames ih =>
    intro off found
    by_cases inside : off < (encodeFrame frame).length
    · cases off with
      | zero => exact ⟨[], frame :: frames, rfl, rfl⟩
      | succ off =>
        obtain ⟨rest, same⟩ := found
        have first : ((encodeFrame frame).tail)[off]? = some 0x56 := by
          rw [getElem?_tail, ← getElem?_append_left inside, ← wire_cons, ← head?_drop, ← same]
          rfl
        exact absurd (mem_of_getElem? first) (clean frame mem_cons_self)
    rw [wire_cons, drop_append, drop_of_length_le (by omega), nil_append] at found
    obtain ⟨early, late, rfl, place⟩ := ih (fun later member => clean later (mem_cons_of_mem frame member)) _ found
    refine ⟨frame :: early, late, rfl, ?_⟩
    rw [wire_cons, length_append]
    omega

def longAndShort : List Frame := [⟨.data, 1, List.replicate maxPayload 0⟩, ⟨.ctrl, 0, [7]⟩]

/-- A header with nothing behind it, which promises the longest payload. -/
def bareHeader : List UInt8 := (encodeFrame ⟨.data, 1, List.replicate maxPayload 0⟩).take headerLen

theorem short_frame_behind_header : MagicAtStarts longAndShort ∧
    [⟨.ctrl, 0, [7]⟩] <:+ decodePieces [] [bareHeader, wire longAndShort] := by
  have fits : ∀ frame ∈ longAndShort, frame.payload.length ≤ maxPayload := by
    intro frame member
    rcases mem_cons.mp member with rfl | later
    · exact (length_replicate ..).le
    · rw [mem_singleton.mp later]
      decide
  have starts : MagicAtStarts longAndShort := by
    refine magicAtStarts_of_tail fun frame member => ?_
    rcases mem_cons.mp member with rfl | later
    · have tail : ∀ length : List UInt8, (magic ++ length ++ [1] ++ toLe32 1 ++ List.replicate maxPayload 0).tail =
          magic.tail ++ length ++ [1] ++ toLe32 1 ++ List.replicate maxPayload 0 := fun _ => rfl
      have length : toLe32 (List.replicate maxPayload (0 : UInt8)).length = [0, 0, 1, 0] := by
        rw [length_replicate]
        decide +kernel
      show (0x56 : UInt8) ∉ (magic ++ toLe32 (List.replicate maxPayload (0 : UInt8)).length ++ [1] ++ toLe32 1 ++
        List.replicate maxPayload 0).tail
      rw [tail, length]
      simp only [mem_append, mem_replicate, not_or, not_and]
      exact ⟨by decide +kernel, by decide⟩
    · rw [mem_singleton.mp later]
      decide +kernel
  refine ⟨starts, ?_⟩
  refine (decoder_delivers_frames (fun _ : Unit => .ok []) longAndShort fits).2.2.2 starts bareHeader _
    [⟨.data, 1, List.replicate maxPayload 0⟩] _ ?_ rfl ?_
  · simp
  · simp [wire, length_encodeFrame]

end Vmlab.Agent
