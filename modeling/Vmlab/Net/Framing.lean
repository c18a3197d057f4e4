import Vmlab.Net.Offload
import Vmlab.Library.LengthPrefixed
import Vmlab.Library.Result

/-!
# Stream-netdev framing

Length-prefixed packets on a port whose framing mode was fixed at attachment (`src/net/framing.rs`). A byte source is
the list of bytes it delivers before it closes; a sink accepts whatever is written.
-/

namespace Vmlab.Net

open Library Offload List
open LengthPrefixed (encode)

inductive FramingMode where
  | raw
  | vnet (queuePairs : UInt16)

/-- Ethernet bytes and the offload state needed by another capable port. -/
structure Packet where
  frame : List UInt8
  header : Header
  queue : UInt16
  deriving DecidableEq

def Packet.raw (frame : List UInt8) : Packet := { frame, header := Header.none, queue := 0 }

def Packet.forPort (packet : Packet) (mode : FramingMode) (mtu : UInt16) : IoResult (List Packet) :=
  match mode with
  | .vnet queuePairs =>
    if queuePairs ≠ 0 then
      let queue := flowHash packet.frame % UInt32.ofNat queuePairs.toNat
      .ok [{ packet with queue := UInt16.ofNat queue.toNat }]
    else .error { kind := .invalidInput, message := "vnet port needs at least one queue pair" }
  | .raw =>
    if packet.header = Header.none then .ok [packet]
    else do
      let frames ← packet.header.segments packet.frame mtu
      .ok (frames.map Packet.raw)

def maxFrameLen : Nat := 65536 + 14 + 4

section

variable (source : List UInt8)

/-- One length-prefixed body and the bytes after it; `none` when the source
closed on a frame boundary. -/
def readBody (limit : Nat) : IoResult (Option (List UInt8 × List UInt8)) :=
  if source.length < 4 then
    if source = [] then .ok none
    else .error { kind := .unexpectedEof, message := "stream closed mid length prefix" }
  else
    let len := bigEndian (source.take 4)
    if limit < len then
      .error { kind := .invalidData, message := s!"frame length {len} exceeds cap {limit}" }
    else if (source.drop 4).length < len then
      .error { kind := .unexpectedEof, message := "early eof" }
    else .ok (some ((source.drop 4).take len, (source.drop 4).drop len))

def readFrame : IoResult (Option (List UInt8 × List UInt8)) := readBody source maxFrameLen

def readPacket (mode : FramingMode) : IoResult (Option (Packet × List UInt8)) :=
  match mode with
  | .raw => do
      match ← readFrame source with
      | some (frame, rest) => .ok (some (Packet.raw frame, rest))
      | none => .ok none
  | .vnet queuePairs => do
      match ← readBody source (Offload.maxFrameLen + metadataLen) with
      | none => .ok none
      | some (body, rest) =>
        let (header, queue, frame) ← Header.fromMetadata body
        if queuePairs ≤ queue then
          .error { kind := .invalidData, message := "invalid vnet queue id" }
        else .ok (some ({ frame, header, queue }, rest))

end

def writeFrame (frame : List UInt8) : IoResult (List UInt8) :=
  if maxFrameLen < frame.length then
    .error { kind := .invalidInput
             message := s!"frame length {frame.length} exceeds cap {maxFrameLen}" }
  else .ok (toBigEndian 4 frame.length ++ frame)

def writePacket (packet : Packet) (mode : FramingMode) : IoResult (List UInt8) :=
  match mode with
  | .raw => writeFrame packet.frame
  | .vnet queuePairs => do
      packet.header.validate packet.frame
      if queuePairs ≤ packet.queue then
        .error { kind := .invalidInput, message := "invalid vnet queue id" }
      else
        .ok (toBigEndian 4 (metadataLen + packet.frame.length) ++ packet.header.metadata packet.queue ++ packet.frame)

section

variable {frame : List UInt8} (fits : frame.length < 256 ^ 4) (rest : List UInt8)
include fits rest

theorem readBody_encode (limit : Nat) : readBody (encode 4 frame ++ rest) limit =
      if limit < frame.length then
        .error { kind := .invalidData, message := s!"frame length {frame.length} exceeds cap {limit}" }
      else .ok (some (frame, rest)) := by
  have size : (toBigEndian 4 frame.length).length = 4 := length_toBigEndian ..
  have head : (encode 4 frame ++ rest).take 4 = toBigEndian 4 frame.length := by
    rw [encode, append_assoc, take_left' size]
  have tail : (encode 4 frame ++ rest).drop 4 = frame ++ rest := by
    rw [encode, append_assoc, drop_left' size]
  have long : ¬(encode 4 frame ++ rest).length < 4 := by
    rw [length_append, LengthPrefixed.length_encode]
    omega
  have enough : ¬(frame ++ rest).length < frame.length := by
    rw [length_append]
    omega
  rw [readBody, if_neg long, head, tail, bigEndian_toBigEndian fits]
  simp only [if_neg enough, take_left' rfl, drop_left' rfl]

theorem readBody_refuses_iff {limit : Nat} : (∃ message, readBody (encode 4 frame ++ rest) limit =
      .error { kind := .invalidData, message }) ↔ limit < frame.length := by
  rw [readBody_encode fits]
  constructor
  · rintro ⟨message, refused⟩
    by_contra within
    rw [if_neg within] at refused
    cases refused
  · intro tooLong
    exact ⟨_, if_pos tooLong⟩

end

/-! ### What one port accepts, another port can write -/

variable {frame segment source rest : List UInt8} {count : Nat} {layout : Layout} {header : Header}
    {mtu queuePairs : UInt16} {mode : FramingMode} {packet : Packet}

namespace Offload

theorem length_skipTags {ip ip' : Nat} {kind kind' : UInt16}
    (skipped : Layout.skipTags frame count ip kind = .ok (ip', kind')) : ip ≤ ip' := by
  induction count generalizing ip kind with
  | zero => cases skipped; exact le_rfl
  | succ count ih =>
    rw [Layout.skipTags] at skipped
    split at skipped
    · obtain ⟨_, _, deeper⟩ := bind_eq_ok.mp skipped
      exact (by omega : ip ≤ ip + 4).trans (ih deeper)
    · cases skipped; exact le_rfl

theorem length_skipExtensions {start start' : Nat} {protocol protocol' : UInt8}
    (skipped : Layout.skipExtensions frame count start protocol = .ok (start', protocol')) : start ≤ start' := by
  induction count generalizing start protocol with
  | zero => cases skipped; exact le_rfl
  | succ count ih =>
    rw [Layout.skipExtensions] at skipped
    split at skipped
    · obtain ⟨_, _, deeper⟩ := bind_eq_ok.mp skipped
      obtain ⟨_, _, deepest⟩ := bind_eq_ok.mp deeper
      exact Nat.le_of_add_right_le (ih deepest)
    · cases skipped; exact le_rfl

theorem network_spec {ip transport : Nat} {kind : UInt16} {protocol : UInt8}
    {ipv4 : Bool} (found : Layout.network frame ip kind = .ok (transport, protocol, ipv4)) :
    ip + (if ipv4 then 20 else 40) ≤ transport := by
  rw [Layout.network] at found
  split at found
  · obtain ⟨first, _, found⟩ := bind_eq_ok.mp found
    obtain ⟨wellFormed, found⟩ := ite_error_eq_ok.mp found
    obtain ⟨fragment, _, found⟩ := bind_eq_ok.mp found
    obtain ⟨_, found⟩ := ite_error_eq_ok.mp found
    obtain ⟨_, _, shape⟩ := bind_eq_ok.mp found
    cases shape
    simp only [if_true]
    omega
  split at found
  · obtain ⟨first, _, found⟩ := bind_eq_ok.mp found
    obtain ⟨_, found⟩ := ite_error_eq_ok.mp found
    obtain ⟨_, _, found⟩ := bind_eq_ok.mp found
    obtain ⟨⟨start, last⟩, skipped, shape⟩ := bind_eq_ok.mp found
    cases shape
    simpa using length_skipExtensions skipped
  · cases found

def Layout.Fits (layout : Layout) (frame : List UInt8) : Prop :=
  layout.ip + (if layout.ipv4 then 20 else 40) ≤ layout.transport ∧
    ((layout.protocol = 6 ∧ layout.transport + 20 ≤ frame.length) ∨
      (layout.protocol = 17 ∧ layout.transport + 8 ≤ frame.length))

theorem parse_fits (parsed : Layout.parse frame = .ok layout) : layout.Fits frame := by
  rw [Layout.parse] at parsed
  obtain ⟨_, _, parsed⟩ := bind_eq_ok.mp parsed
  obtain ⟨⟨ip, kind⟩, _, parsed⟩ := bind_eq_ok.mp parsed
  obtain ⟨⟨transport, protocol, ipv4⟩, network, parsed⟩ := bind_eq_ok.mp parsed
  obtain ⟨least, sized, parsed⟩ := bind_eq_ok.mp parsed
  obtain ⟨room, shape⟩ := ite_error_eq_ok.mp parsed
  cases shape
  refine ⟨network_spec network, ?_⟩
  rw [leastTransport] at sized
  split at sized
  · next tcp =>
    cases sized
    exact .inl ⟨tcp, by dsimp only; omega⟩
  split at sized
  · next udp =>
    cases sized
    exact .inr ⟨udp, by dsimp only; omega⟩
  · cases sized

theorem payloadStart_spec {tcp : Bool} {payload : Nat} (found : layout.payloadStart frame tcp = .ok payload) :
    layout.transport + (if tcp then 20 else 8) ≤ payload := by
  rw [Layout.payloadStart] at found
  split at found
  · next isTcp =>
    obtain ⟨byte, _, found⟩ := bind_eq_ok.mp found
    obtain ⟨enough, shape⟩ := ite_error_eq_ok.mp found
    cases shape
    simp only [isTcp, if_true]
    omega
  · next notTcp =>
    cases found
    simp [notTcp]

theorem length_patchNetwork {part patched : List UInt8} {index : Nat}
    (room : layout.ip + (if layout.ipv4 then 20 else 40) ≤ part.length)
    (made : layout.patchNetwork frame part index = .ok patched) : patched.length = part.length := by
  rw [Layout.patchNetwork] at made
  split at made
  · next isIpv4 =>
    rw [if_pos isIpv4] at room
    obtain ⟨_, _, made⟩ := bind_eq_ok.mp made
    obtain ⟨_, _, shape⟩ := bind_eq_ok.mp made
    cases shape
    iterate 4 refine length_overwrite_of_eq ?_ (by simp; omega)
    rfl
  · next notIpv4 =>
    rw [if_neg notIpv4] at room
    obtain ⟨_, _, shape⟩ := bind_eq_ok.mp made
    cases shape
    exact length_overwrite (by rw [length_toBigEndian]; omega)

theorem length_patchTransport {layout : Layout} {frame part : List UInt8} {tcp : Bool}
    {index count offset : Nat} (room : layout.transport + (if tcp then 20 else 8) ≤ part.length) :
    (layout.patchTransport frame part tcp index count offset).length = part.length := by
  rw [Layout.patchTransport]
  split
  · next isTcp =>
    rw [if_pos isTcp] at room
    iterate 2 refine length_overwrite_of_eq ?_ (by simp; omega)
    rfl
  · next notTcp =>
    rw [if_neg notTcp] at room
    exact length_overwrite (by rw [length_toBigEndian]; omega)

theorem length_segment {payload size index : Nat}
    {tcp : Bool} (network : layout.ip + (if layout.ipv4 then 20 else 40) ≤ layout.transport)
    (transport : layout.transport + (if tcp then 20 else 8) ≤ payload) (inside : payload ≤ frame.length)
    (made : layout.segment frame payload size count tcp index = .ok segment) : segment.length ≤ frame.length := by
  rw [Layout.segment] at made
  obtain ⟨part, patched, shape⟩ := bind_eq_ok.mp made
  cases shape
  have headers : (frame.take payload).length = payload := by
    rw [length_take]
    omega
  have slice : ((List.take (index * size + size) (frame.drop payload)).drop (index * size)).length ≤
      frame.length - payload := by
    simp only [length_drop, length_take]
    omega
  have kept := length_patchNetwork (by rw [length_append, headers]; omega) patched
  rw [length_append, headers] at kept
  have carried := @length_patchTransport layout frame part tcp index count (index * size) (by omega)
  have field : layout.transport + (if tcp = true then 16 else 6) + 2 ≤ part.length := by
    split <;> simp_all <;> omega
  rw [length_overwrite_of_eq (length_overwrite_of_eq carried (by simpa using field))
    (by simpa using field)]
  omega

theorem length_segmentFrames {frames : List (List UInt8)} (made : header.segmentFrames frame mtu = .ok frames)
    (member : segment ∈ frames) : segment.length ≤ frame.length := by
  rw [Header.segmentFrames] at made
  obtain ⟨layout, parsed, made⟩ := bind_eq_ok.mp made
  obtain ⟨payload, located, made⟩ := bind_eq_ok.mp made
  obtain ⟨inside, made⟩ := ite_error_eq_ok.mp made
  obtain ⟨_, made⟩ := ite_error_eq_ok.mp made
  obtain ⟨_, made⟩ := ite_error_eq_ok.mp made
  obtain ⟨_, made⟩ := ite_error_eq_ok.mp made
  obtain ⟨_, made⟩ := ite_error_eq_ok.mp made
  obtain ⟨index, _, cut⟩ := exists_of_mem_mapM made member
  exact length_segment (parse_fits parsed).1 (payloadStart_spec located) (by omega) cut

theorem length_complete (inside : header.flags &&& needsCsum ≠ 0 →
    header.csumStart.toNat + header.csumOffset.toNat + 2 ≤ frame.length) :
    (header.complete frame).length = frame.length := by
  rw [Header.complete]
  split
  · next pending => exact length_overwrite (by simpa using inside pending)
  · rfl

theorem validate_bounds (valid : header.validate frame = .ok ()) :
    14 ≤ frame.length ∧ frame.length ≤ Offload.maxFrameLen ∧
      (header.flags &&& needsCsum ≠ 0 → header.csumStart.toNat + header.csumOffset.toNat + 2 ≤ frame.length) := by
  rw [Header.validate] at valid
  obtain ⟨_, _, valid⟩ := bind_eq_ok.mp valid
  obtain ⟨sized, valid⟩ := ite_error_eq_ok.mp valid
  obtain ⟨checked, _⟩ := ite_error_eq_ok.mp valid
  exact ⟨by omega, by omega, fun pending => by
    by_contra short
    exact checked ⟨pending, by omega⟩⟩

theorem length_segments {frames : List (List UInt8)} (made : header.segments frame mtu = .ok frames)
    (member : segment ∈ frames) : segment.length ≤ frame.length := by
  rw [Header.segments] at made
  obtain ⟨_, valid, made⟩ := bind_eq_ok.mp made
  split at made
  · cases made
    rw [mem_singleton.mp member, length_complete (validate_bounds valid).2.2]
  · exact length_segmentFrames made member

theorem validate_none :
    Header.none.validate frame = .ok () ↔ 14 ≤ frame.length ∧ frame.length ≤ Offload.maxFrameLen := by
  have decoded : Header.decode Header.none.encode = .ok Header.none := by decide
  constructor
  · intro valid
    exact ⟨(validate_bounds valid).1, (validate_bounds valid).2.1⟩
  rintro ⟨long, short⟩
  rw [Header.validate, decoded]
  show (if _ then _ else _) = _
  rw [if_neg (by omega), if_neg (by rintro ⟨pending, _⟩; exact pending (by decide)),
    if_neg (fun segmented => segmented (by decide))]

end Offload

theorem readBody_spec {body : List UInt8} {limit : Nat}
    (accepted : readBody source limit = .ok (some (body, rest))) : body.length ≤ limit := by
  rw [readBody] at accepted
  split at accepted
  · split at accepted <;> cases accepted
  obtain ⟨within, accepted⟩ := ite_error_eq_ok.mp accepted
  obtain ⟨_, shape⟩ := ite_error_eq_ok.mp accepted
  cases shape
  exact (length_take_le _ _).trans (Nat.le_of_not_lt within)

theorem fromMetadata_validates {body : List UInt8} {queue : UInt16}
    (decoded : Header.fromMetadata body = .ok (header, queue, frame)) : header.validate frame = .ok () := by
  rw [Header.fromMetadata] at decoded
  obtain ⟨_, decoded⟩ := ite_error_eq_ok.mp decoded
  obtain ⟨_, _, decoded⟩ := bind_eq_ok.mp decoded
  obtain ⟨_, decoded⟩ := ite_error_eq_ok.mp decoded
  obtain ⟨_, _, decoded⟩ := bind_eq_ok.mp decoded
  obtain ⟨_, valid, decoded⟩ := bind_eq_ok.mp decoded
  obtain ⟨_, _, shape⟩ := bind_eq_ok.mp decoded
  cases shape
  exact valid

section

variable (accepted : readPacket source mode = .ok (some (packet, rest)))
include accepted

theorem readPacket_spec : (packet.header = Header.none ∧ packet.frame.length ≤ maxFrameLen) ∨
      packet.header.validate packet.frame = .ok () := by
  cases mode with
  | raw =>
    obtain ⟨found, read, shape⟩ := bind_eq_ok.mp accepted
    match found, shape with
    | some (frame, rest), rfl => exact .inl ⟨rfl, readBody_spec read⟩
  | vnet queuePairs =>
    obtain ⟨found, _, shape⟩ := bind_eq_ok.mp accepted
    match found, shape with
    | some (body, rest), shape =>
      obtain ⟨⟨header, queue, frame⟩, decoded, shape⟩ := bind_eq_ok.mp shape
      obtain ⟨_, shape⟩ := ite_error_eq_ok.mp shape
      cases shape
      exact .inr (fromMetadata_validates decoded)

theorem validate_of_readPacket (long : 14 ≤ packet.frame.length) (short : packet.frame.length ≤ Offload.maxFrameLen) :
    packet.header.validate packet.frame = .ok () := by
  rcases readPacket_spec accepted with ⟨plain, _⟩ | valid
  · rw [plain]
    exact validate_none.mpr ⟨long, short⟩
  · exact valid

theorem length_of_readPacket : packet.frame.length ≤ maxFrameLen := by
  rcases readPacket_spec accepted with ⟨_, bounded⟩ | valid
  · exact bounded
  · exact (validate_bounds valid).2.1.trans (by decide)

end

theorem writePacket_raw_iff : (∃ bytes, writePacket packet .raw = .ok bytes) ↔ packet.frame.length ≤ maxFrameLen := by
  simp only [writePacket, writeFrame, ite_error_eq_ok, Nat.not_lt]
  exact ⟨fun ⟨_, within, _⟩ => within, fun within => ⟨_, within, rfl⟩⟩

theorem writePacket_vnet_iff : (∃ bytes, writePacket packet (.vnet queuePairs) = .ok bytes) ↔
      packet.header.validate packet.frame = .ok () ∧ packet.queue < queuePairs := by
  simp only [writePacket, bind_eq_ok, ite_error_eq_ok]
  constructor
  · rintro ⟨_, _, valid, served, _⟩
    exact ⟨valid, UInt16.not_le.mp served⟩
  · rintro ⟨valid, served⟩
    exact ⟨_, _, valid, UInt16.not_le.mpr served, rfl⟩

theorem steered_lt {hash : UInt32} (some : queuePairs ≠ 0) :
    UInt16.ofNat (hash % UInt32.ofNat queuePairs.toNat).toNat < queuePairs := by
  have positive : 0 < queuePairs.toNat := by
    rw [Nat.pos_iff_ne_zero]
    exact fun zero => some (UInt16.toNat_inj.mp zero)
  have small := queuePairs.toNat_lt
  have same : (UInt32.ofNat queuePairs.toNat).toNat = queuePairs.toNat := by
    rw [UInt32.toNat_ofNat']
    omega
  have below := Nat.mod_lt hash.toNat positive
  rw [UInt16.lt_iff_toNat_lt, UInt16.toNat_ofNat', UInt32.toNat_mod, same]
  omega

theorem forPort_vnet {packets : List Packet} (adapted : packet.forPort (.vnet queuePairs) mtu = .ok packets) :
    ∃ queue, queue < queuePairs ∧ packets = [{ packet with queue }] := by
  rw [Packet.forPort] at adapted
  split at adapted
  · next some =>
    cases adapted
    exact ⟨_, steered_lt some, rfl⟩
  · cases adapted

theorem forPort_raw {leaving : Packet} {packets : List Packet}
    (adapted : packet.forPort .raw mtu = .ok packets) (member : leaving ∈ packets) :
    leaving.frame.length ≤ packet.frame.length := by
  rw [Packet.forPort] at adapted
  split at adapted
  · cases adapted
    rw [mem_singleton.mp member]
  obtain ⟨frames, made, shape⟩ := bind_eq_ok.mp adapted
  cases shape
  obtain ⟨frame, inside, rfl⟩ := mem_map.mp member
  exact length_segments made inside

/-- A packet that was read on one port, and that the switch forwards because
it is no runt, can be written to another port exactly when that port does not
use metadata or the frame stays within the metadata format's limit. -/
theorem writePacket_of_readPacket {source rest : List UInt8} {modeIn modeOut : FramingMode}
    {packet : Packet} {mtu : UInt16} {packets : List Packet}
    (accepted : readPacket source modeIn = .ok (some (packet, rest))) (forwarded : 14 ≤ packet.frame.length)
    (adapted : packet.forPort modeOut mtu = .ok packets) :
    (∀ leaving ∈ packets, ∃ bytes, writePacket leaving modeOut = .ok bytes) ↔
      (modeOut ≠ .raw → packet.frame.length ≤ Offload.maxFrameLen) := by
  cases modeOut with
  | raw =>
    simp only [ne_eq, not_true_eq_false, false_implies, iff_true]
    intro leaving member
    exact writePacket_raw_iff.mpr ((forPort_raw adapted member).trans (length_of_readPacket accepted))
  | vnet queuePairs =>
    obtain ⟨queue, served, rfl⟩ := forPort_vnet adapted
    simp only [mem_singleton, forall_eq, writePacket_vnet_iff]
    constructor
    · rintro ⟨valid, _⟩ _
      exact (validate_bounds valid).2.1
    · intro within
      exact ⟨validate_of_readPacket accepted forwarded (within (by simp)), served⟩

def headerOnly : List UInt8 := List.replicate 14 0

theorem writePacket_headerOnly :
    readPacket (encode 4 headerOnly) .raw = .ok (some (Packet.raw headerOnly, [])) ∧
      (Packet.raw headerOnly).forPort (.vnet 1) 1500 = .ok [Packet.raw headerOnly] ∧
      ((∀ leaving ∈ [Packet.raw headerOnly], ∃ bytes, writePacket leaving (.vnet 1) = .ok bytes) ↔
        (FramingMode.vnet 1 ≠ .raw → (Packet.raw headerOnly).frame.length ≤ Offload.maxFrameLen)) :=
  ⟨by decide, by decide, @writePacket_of_readPacket (encode 4 headerOnly) [] .raw (.vnet 1)
    (Packet.raw headerOnly) 1500 [Packet.raw headerOnly] (by decide) (by decide) (by decide)⟩

def longestFrame : List UInt8 := List.replicate maxFrameLen 0

/-- A raw guest's longest frame is read, adapted and queued, and then stops
the writer of a metadata port. -/
theorem writePacket_longestFrame :
    readPacket (encode 4 longestFrame) .raw = .ok (some (Packet.raw longestFrame, [])) ∧
      14 ≤ (Packet.raw longestFrame).frame.length ∧
      ∃ packets, (Packet.raw longestFrame).forPort (.vnet 1) 1500 = .ok packets ∧
        ∃ leaving ∈ packets, ¬∃ bytes, writePacket leaving (.vnet 1) = .ok bytes := by
  have length : longestFrame.length = maxFrameLen := length_replicate
  refine ⟨?_, ?_, _, rfl, _, mem_singleton_self _, ?_⟩
  · have read := readBody_encode (show longestFrame.length < 256 ^ 4 by rw [length]; decide) [] maxFrameLen
    rw [append_nil, length, if_neg (Nat.lt_irrefl _)] at read
    rw [readPacket, readFrame, read]
    rfl
  · show 14 ≤ longestFrame.length
    rw [length]
    decide
  rw [writePacket_vnet_iff]
  rintro ⟨valid, _⟩
  have short : longestFrame.length ≤ Offload.maxFrameLen := (validate_bounds valid).2.1
  rw [length] at short
  exact absurd short (by decide)

end Vmlab.Net
