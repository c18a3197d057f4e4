import Vmlab.Net.Framing

/-!
# The segments of a packet

Every segment is the packet's headers with a slice of its payload. What the parser reads is none of the header fields
written anew, so a segment has the layout of its packet.
-/

namespace Vmlab.Net.Offload

open Library List

section

variable {frame part : List UInt8}

theorem byteAt_congr {start : Nat} (same : part[start]? = frame[start]?) : byteAt part start = byteAt frame start := by
  rw [byteAt, byteAt, same]

theorem window_congr {first count : Nat} (same : ∀ index < count, part[first + index]? = frame[first + index]?) :
    window part first count = window frame first count := by
  apply ext_getElem?
  intro index
  simp only [window, getElem?_take, getElem?_drop]
  split
  · next inside => exact same index inside
  · rfl

theorem be16_congr {start : Nat} (high : part[start]? = frame[start]?) (low : part[start + 1]? = frame[start + 1]?) :
    be16 part start = be16 frame start := by
  have length : start + 2 ≤ part.length ↔ start + 2 ≤ frame.length := by
    have ends : part.length ≤ start + 1 ↔ frame.length ≤ start + 1 := by
      rw [← List.getElem?_eq_none_iff, ← List.getElem?_eq_none_iff, low]
    omega
  have bytes : window part start 2 = window frame start 2 := by
    apply window_congr
    intro index inside
    match index, inside with
    | 0, _ => exact high
    | 1, _ => exact low
  rw [be16, be16, bytes]
  exact if_congr length rfl rfl

theorem byteAt_eq_ok {start : Nat} {byte : UInt8} (read : byteAt frame start = .ok byte) : frame.getD start 0 = byte := by
  rw [byteAt] at read
  rw [getD_eq_getElem?_getD]
  split at read
  · next found =>
    cases read
    rw [found]
    rfl
  · cases read

theorem skipTags_congr {count ip ip' : Nat} {kind kind' : UInt16}
    (skipped : Layout.skipTags frame count ip kind = .ok (ip', kind'))
    (same : ∀ position < ip', part[position]? = frame[position]?) :
    Layout.skipTags part count ip kind = .ok (ip', kind') := by
  induction count generalizing ip kind with
  | zero => exact skipped
  | succ count ih =>
    rw [Layout.skipTags] at skipped ⊢
    split at skipped
    · next tagged =>
      obtain ⟨inner, read, deeper⟩ := bind_eq_ok.mp skipped
      have reach := length_skipTags deeper
      rw [if_pos tagged, be16_congr (same (ip + 2) (by omega)) (same (ip + 2 + 1) (by omega)), read]
      exact ih deeper
    · next plain =>
      rw [if_neg plain]
      exact skipped

theorem skipExtensions_congr {count start start' : Nat} {protocol protocol' : UInt8}
    (skipped : Layout.skipExtensions frame count start protocol = .ok (start', protocol'))
    (same : ∀ position, start ≤ position → position < start' → part[position]? = frame[position]?) :
    Layout.skipExtensions part count start protocol = .ok (start', protocol') := by
  induction count generalizing start protocol with
  | zero => exact skipped
  | succ count ih =>
    rw [Layout.skipExtensions] at skipped ⊢
    split at skipped
    · next extension =>
      obtain ⟨next, readNext, skipped⟩ := bind_eq_ok.mp skipped
      obtain ⟨length, readLength, deeper⟩ := bind_eq_ok.mp skipped
      have reach := length_skipExtensions deeper
      have atLeast : 8 ≤ (if protocol = 51 then (length.toNat + 2) * 4 else (length.toNat + 1) * 8) := by
        split <;> omega
      rw [if_pos extension, byteAt_congr (same start le_rfl (by omega)), readNext,
        byteAt_congr (same (start + 1) (by omega) (by omega)), readLength]
      refine ih deeper fun position low high => same position (by omega) high
    · next plain =>
      rw [if_neg plain]
      exact skipped

def Layout.NetworkField (layout : Layout) (position : Nat) : Prop :=
  if layout.ipv4 then
    (layout.ip + 2 ≤ position ∧ position < layout.ip + 6) ∨ (layout.ip + 10 ≤ position ∧ position < layout.ip + 12)
  else layout.ip + 4 ≤ position ∧ position < layout.ip + 6

theorem Layout.NetworkField.bounds {layout : Layout} {position : Nat} (field : layout.NetworkField position) :
    layout.ip + 2 ≤ position ∧ position < layout.ip + 12 := by
  rw [Layout.NetworkField] at field
  split at field <;> omega

theorem network_congr {ip transport : Nat} {kind : UInt16} {protocol : UInt8} {ipv4 : Bool}
    (found : Layout.network frame ip kind = .ok (transport, protocol, ipv4))
    (same : ∀ position < transport, ¬Layout.NetworkField ⟨ip, transport, protocol, ipv4⟩ position →
      part[position]? = frame[position]?) :
    Layout.network part ip kind = .ok (transport, protocol, ipv4) := by
  have reach := network_spec found
  rw [Layout.network] at found ⊢
  split at found
  · next isIpv4 =>
    obtain ⟨first, readFirst, found⟩ := bind_eq_ok.mp found
    obtain ⟨wellFormed, found⟩ := ite_error_eq_ok.mp found
    obtain ⟨fragment, readFragment, found⟩ := bind_eq_ok.mp found
    obtain ⟨whole, found⟩ := ite_error_eq_ok.mp found
    obtain ⟨last, readLast, shape⟩ := bind_eq_ok.mp found
    cases shape
    simp only [Layout.NetworkField, if_true] at same reach
    rw [if_pos isIpv4, byteAt_congr (same ip (by omega) (by omega)), readFirst]
    refine bind_eq_ok.mpr ⟨first, rfl, ite_error_eq_ok.mpr ⟨wellFormed, ?_⟩⟩
    rw [be16_congr (same (ip + 6) (by omega) (by omega)) (same (ip + 6 + 1) (by omega) (by omega)), readFragment]
    refine bind_eq_ok.mpr ⟨fragment, rfl, ite_error_eq_ok.mpr ⟨whole, ?_⟩⟩
    rw [byteAt_congr (same (ip + 9) (by omega) (by omega)), readLast]
    rfl
  · next notIpv4 =>
    split at found
    · next isIpv6 =>
      obtain ⟨first, readFirst, found⟩ := bind_eq_ok.mp found
      obtain ⟨wellFormed, found⟩ := ite_error_eq_ok.mp found
      obtain ⟨next, readNext, found⟩ := bind_eq_ok.mp found
      obtain ⟨⟨start, last⟩, skipped, shape⟩ := bind_eq_ok.mp found
      cases shape
      simp only [Layout.NetworkField, Bool.false_eq_true, if_false] at same reach
      rw [if_neg notIpv4, if_pos isIpv6, byteAt_congr (same ip (by omega) (by omega)), readFirst]
      refine bind_eq_ok.mpr ⟨first, rfl, ite_error_eq_ok.mpr ⟨wellFormed, ?_⟩⟩
      rw [byteAt_congr (same (ip + 6) (by omega) (by omega)), readNext]
      refine bind_eq_ok.mpr ⟨next, rfl, bind_eq_ok.mpr ⟨(transport, protocol), ?_, rfl⟩⟩
      exact skipExtensions_congr skipped fun position low high => same position high (by omega)
    · cases found

theorem parse_congr {layout : Layout} (parsed : Layout.parse frame = .ok layout)
    (same : ∀ position < layout.transport, ¬layout.NetworkField position → part[position]? = frame[position]?)
    (room : layout.transport + (if layout.protocol = 6 then 20 else 8) ≤ part.length) :
    Layout.parse part = .ok layout := by
  have fits := parse_fits parsed
  rw [Layout.parse] at parsed ⊢
  obtain ⟨kind, readKind, parsed⟩ := bind_eq_ok.mp parsed
  obtain ⟨⟨ip, inner⟩, skipped, parsed⟩ := bind_eq_ok.mp parsed
  obtain ⟨⟨transport, protocol, ipv4⟩, found, parsed⟩ := bind_eq_ok.mp parsed
  obtain ⟨least, sized, parsed⟩ := bind_eq_ok.mp parsed
  obtain ⟨long, shape⟩ := ite_error_eq_ok.mp parsed
  cases shape
  have start := length_skipTags skipped
  have reach := network_spec found
  have front (position : Nat) (before : position < ip) : part[position]? = frame[position]? := by
    refine same position (by simp only; omega) fun field => ?_
    have bounds := field.bounds
    dsimp only at bounds
    omega
  rw [be16_congr (front 12 (by omega)) (front (12 + 1) (by omega)), readKind]
  refine bind_eq_ok.mpr ⟨kind, rfl, bind_eq_ok.mpr ⟨(ip, inner), skipTags_congr skipped front, ?_⟩⟩
  refine bind_eq_ok.mpr ⟨(transport, protocol, ipv4), network_congr found same, ?_⟩
  refine bind_eq_ok.mpr ⟨least, sized, ite_error_eq_ok.mpr ⟨?_, rfl⟩⟩
  rw [leastTransport] at sized
  split at sized
  · next tcp =>
    cases sized
    simp only [if_pos tcp] at room
    omega
  · next notTcp =>
    simp only [if_neg notTcp] at room
    split at sized
    · cases sized
      omega
    · cases sized

end

section

variable {layout : Layout} {frame part patched : List UInt8} {index count offset : Nat} {tcp : Bool}

structure PatchedNetwork (layout : Layout) (part patched : List UInt8) : Prop where
  length : patched.length = part.length
  outside : ∀ position, ¬layout.NetworkField position → patched[position]? = part[position]?
  total : if layout.ipv4 then bigEndian (window patched (layout.ip + 2) 2) = part.length - layout.ip
    else bigEndian (window patched (layout.ip + 4) 2) = part.length - layout.ip - 40
  small : part.length - layout.ip - (if layout.ipv4 then 0 else 40) < 0x10000
  verifies : layout.ipv4 = true → checksum (window patched layout.ip (layout.transport - layout.ip)) = 0

theorem tryU16_eq_ok {value result : Nat} (fits : tryU16 value = .ok result) : result = value ∧ value < 0x10000 := by
  unfold tryU16 at fits
  split at fits
  · next small =>
    cases fits
    exact ⟨rfl, small⟩
  · cases fits

theorem patchNetwork_spec (network : layout.ip + (if layout.ipv4 then 20 else 40) ≤ layout.transport)
    (room : layout.transport ≤ part.length) (made : layout.patchNetwork frame part index = .ok patched) :
    PatchedNetwork layout part patched := by
  rw [Layout.patchNetwork] at made
  split at made
  · next isIpv4 =>
    rw [if_pos isIpv4] at network
    obtain ⟨length, fits, made⟩ := bind_eq_ok.mp made
    obtain ⟨id, _, shape⟩ := bind_eq_ok.mp made
    obtain ⟨rfl, small⟩ := tryU16_eq_ok fits
    cases shape
    have first : (overwrite part (layout.ip + 2) (toBigEndian 2 (part.length - layout.ip))).length = part.length :=
      length_overwrite (by simp; omega)
    have second := @length_overwrite_of_eq _ (toBigEndian 2 (id + UInt16.ofNat index).toNat) (layout.ip + 4) _ first
      (by simp; omega)
    generalize numbered : overwrite (overwrite part (layout.ip + 2) (toBigEndian 2 (part.length - layout.ip)))
      (layout.ip + 4) (toBigEndian 2 (id + UInt16.ofNat index).toNat) = numberedPart at second ⊢
    have third : (overwrite numberedPart (layout.ip + 10) [0, 0]).length = part.length :=
      length_overwrite_of_eq second (by simp; omega)
    refine ⟨length_overwrite_of_eq third (by simp; omega), fun position other => ?_, ?_, ?_, fun _ => ?_⟩
    · rw [Layout.NetworkField, if_pos isIpv4] at other
      rw [getElem?_overwrite_of_not_mem (by simp; omega) (by simp; omega),
        getElem?_overwrite_of_not_mem (by simp; omega) (by simp; omega), ← numbered,
        getElem?_overwrite_of_not_mem (by simp; omega) (by simp; omega),
        getElem?_overwrite_of_not_mem (by simp; omega) (by simp; omega)]
    · rw [if_pos isIpv4, window_overwrite_of_disjoint (by simp; omega) (by simp),
        window_overwrite_of_disjoint (by simp; omega) (by simp), ← numbered,
        window_overwrite_of_disjoint (by simp; omega) (by simp)]
      have written := @window_overwrite_self part (toBigEndian 2 (part.length - layout.ip)) (layout.ip + 2)
        (by simp; omega)
      rw [length_toBigEndian] at written
      rw [written, bigEndian_toBigEndian small]
    · rw [if_pos isIpv4]
      exact small
    · rw [overwrite_overwrite (by simp) (by simp; omega), window_overwrite_inside (by omega) (by simp; omega) (by omega),
        window_overwrite_inside (by omega) (by simp; omega) (by omega), Nat.add_sub_cancel_left]
      exact checksum_overwrite (by decide) (by rw [length_window (by omega)]; omega)
  · next notIpv4 =>
    rw [if_neg notIpv4] at network
    obtain ⟨length, fits, shape⟩ := bind_eq_ok.mp made
    obtain ⟨rfl, small⟩ := tryU16_eq_ok fits
    cases shape
    refine ⟨length_overwrite (by simp; omega), fun position other => ?_, ?_, ?_, fun isIpv4 => absurd isIpv4 notIpv4⟩
    · rw [Layout.NetworkField, if_neg notIpv4] at other
      exact getElem?_overwrite_of_not_mem (by simp; omega) (by simp; omega)
    · have written := @window_overwrite_self part (toBigEndian 2 (part.length - layout.ip - 40)) (layout.ip + 4)
        (by simp; omega)
      rw [length_toBigEndian] at written
      rw [if_neg notIpv4, written, bigEndian_toBigEndian small]
    · rw [if_neg notIpv4]
      exact small

def Layout.TransportField (layout : Layout) (tcp : Bool) (position : Nat) : Prop :=
  if tcp then (layout.transport + 4 ≤ position ∧ position < layout.transport + 8) ∨ position = layout.transport + 13 ∨
    (layout.transport + 16 ≤ position ∧ position < layout.transport + 18)
  else layout.transport + 4 ≤ position ∧ position < layout.transport + 8

theorem Layout.TransportField.bounds {layout : Layout} {tcp : Bool} {position : Nat}
    (field : layout.TransportField tcp position) :
    layout.transport + 4 ≤ position ∧ position < layout.transport + (if tcp then 20 else 8) := by
  rw [Layout.TransportField] at field
  split at field
  · next isTcp =>
    rw [if_pos isTcp]
    omega
  · next notTcp =>
    rw [if_neg notTcp]
    omega

def segmentFlags (flags : UInt8) (index count : Nat) : UInt8 :=
  let flags := if index + 1 ≠ count then flags &&& ~~~(1 ||| 8) else flags
  if index ≠ 0 then flags &&& ~~~128 else flags

structure PatchedTransport (layout : Layout) (frame part patched : List UInt8) (tcp : Bool) (index count offset : Nat) :
    Prop where
  length : patched.length = part.length
  outside : ∀ position, ¬layout.TransportField tcp position → patched[position]? = part[position]?
  sequence : tcp = true → bigEndian (window patched (layout.transport + 4) 4) =
    (bigEndian (window frame (layout.transport + 4) 4) + offset) % 2 ^ 32
  flags : tcp = true → patched.getD (layout.transport + 13) 0 =
    segmentFlags (part.getD (layout.transport + 13) 0) index count
  datagram : tcp = false → bigEndian (window patched (layout.transport + 4) 2) =
    (part.length - layout.transport) % 0x10000

theorem patchTransport_spec (room : layout.transport + (if tcp then 20 else 8) ≤ part.length) :
    PatchedTransport layout frame part (layout.patchTransport frame part tcp index count offset) tcp index count offset := by
  have length := @length_patchTransport layout frame part tcp index count offset room
  cases tcp with
  | true =>
    simp only [if_true] at room
    have numbered : (overwrite part (layout.transport + 4)
        (toBigEndian 4 (bigEndian (window frame (layout.transport + 4) 4) + offset))).length = part.length :=
      length_overwrite (by simp; omega)
    have kept : (overwrite part (layout.transport + 4) (toBigEndian 4
        (bigEndian (window frame (layout.transport + 4) 4) + offset))).getD (layout.transport + 13) 0 =
        part.getD (layout.transport + 13) 0 := by
      rw [getD_eq_getElem?_getD, getD_eq_getElem?_getD, getElem?_overwrite_of_not_mem (by simp; omega) (by simp)]
    refine ⟨length, fun position other => ?_, fun _ => ?_, fun _ => ?_, fun notTcp => Bool.noConfusion notTcp⟩
    · simp only [Layout.TransportField, if_true] at other
      rw [Layout.patchTransport, if_pos rfl]
      dsimp only
      rw [getElem?_overwrite_of_not_mem (by simp; omega) (by simp; omega),
        getElem?_overwrite_of_not_mem (by simp; omega) (by simp; omega)]
    · rw [Layout.patchTransport, if_pos rfl]
      dsimp only
      rw [window_overwrite_of_disjoint (by simp; omega) (by simp)]
      have written := @window_overwrite_self part
        (toBigEndian 4 (bigEndian (window frame (layout.transport + 4) 4) + offset)) (layout.transport + 4)
        (by simp; omega)
      rw [length_toBigEndian] at written
      rw [written, bigEndian_toBigEndian_mod, show 256 ^ 4 = 2 ^ 32 from rfl]
    rw [Layout.patchTransport, if_pos rfl]
    dsimp only
    rw [kept, getD_eq_getElem?_getD, getElem?_overwrite_of_mem (by simp; omega) (by omega) (by simp), Nat.sub_self]
    rfl
  | false =>
    simp only [Bool.false_eq_true, if_false] at room
    refine ⟨length, fun position other => ?_, fun isTcp => Bool.noConfusion isTcp,
      fun isTcp => Bool.noConfusion isTcp, fun _ => ?_⟩
    · simp only [Layout.TransportField, Bool.false_eq_true, if_false] at other
      exact getElem?_overwrite_of_not_mem (by simp; omega) (by simp; omega)
    have written := @window_overwrite_self part (toBigEndian 2 (part.length - layout.transport))
      (layout.transport + 4) (by simp; omega)
    rw [length_toBigEndian] at written
    rw [Layout.patchTransport, if_neg (by decide), written, bigEndian_toBigEndian_mod, show 256 ^ 2 = 0x10000 from rfl]

end

section

variable {layout : Layout} {frame part : List UInt8} {payload size count index : Nat} {tcp : Bool}

theorem transportChecksum_overwrite (network : layout.ip + (if layout.ipv4 then 20 else 40) ≤ layout.transport)
    {field : Nat} (low : layout.transport ≤ field) (even : 2 ∣ field - layout.transport)
    (inside : field + 2 ≤ part.length) :
    ∃ sum, layout.transportChecksum (overwrite part field [0, 0]) = finishSum sum ∧ ∀ value < 0x10000,
      layout.transportChecksum (overwrite part field (toBigEndian 2 value)) = finishSum (sum + value) := by
  have sums (patch : List UInt8) (two : patch.length = 2) : layout.transportChecksum (overwrite part field patch) =
      finishSum ((if layout.ipv4 then
          sumWords (window part (layout.ip + 12) 8) + sumWords [0, layout.protocol] +
            sumWords (toBigEndian 2 (part.length - layout.transport))
        else
          sumWords (window part (layout.ip + 8) 32) + sumWords (toBigEndian 4 (part.length - layout.transport)) +
            sumWords [0, 0, 0, layout.protocol]) +
        sumWords (overwrite (part.drop layout.transport) (field - layout.transport) patch)) := by
    have length : (overwrite part field patch).length = part.length := length_overwrite (by omega)
    rw [Layout.transportChecksum, length, drop_overwrite low (by omega)]
    split at network
    · next isIpv4 =>
      rw [if_pos isIpv4, if_pos isIpv4, window_overwrite_of_disjoint (by omega) (by omega)]
    · next notIpv4 =>
      rw [if_neg notIpv4, if_neg notIpv4, window_overwrite_of_disjoint (by omega) (by omega)]
  refine ⟨_, sums [0, 0] rfl, fun value small => ?_⟩
  rw [sums _ (length_toBigEndian 2 value), sumWords_overwrite even (by rw [length_drop]; omega) small,
    ← Nat.add_assoc]

/-- Where a packet is bound for in the end: a routing header with segments left has the last of them behind it. -/
def lastHop (frame : List UInt8) : Nat → Nat → UInt8 → List UInt8 → List UInt8
  | 0, _, _, destination => destination
  | count + 1, start, protocol, destination =>
    if protocol = 0 ∨ protocol = 43 ∨ protocol = 60 ∨ protocol = 51 then
      let len := (frame.getD (start + 1) 0).toNat
      let size := if protocol = 51 then (len + 2) * 4 else (len + 1) * 8
      let routed : Bool := protocol = 43 ∧ frame.getD (start + 3) 0 ≠ 0
      lastHop frame count (start + size) (frame.getD start 0)
        (if routed then window frame (start + size - 16) 16 else destination)
    else destination

def Layout.headerDestination (layout : Layout) (frame : List UInt8) : List UInt8 := window frame (layout.ip + 24) 16

def Layout.finalDestination (layout : Layout) (frame : List UInt8) : List UInt8 :=
  lastHop frame 8 (layout.ip + 40) (frame.getD (layout.ip + 6) 0) (layout.headerDestination frame)

/-- What a transport checksum covers in front of the segment, as the final destination has it. -/
def Layout.pseudoHeader (layout : Layout) (frame : List UInt8) : List UInt8 :=
  let len := frame.length - layout.transport
  if layout.ipv4 then window frame (layout.ip + 12) 8 ++ [0, layout.protocol] ++ toBigEndian 2 len
  else window frame (layout.ip + 8) 16 ++ layout.finalDestination frame ++ toBigEndian 4 len ++
    [0, 0, 0, layout.protocol]

def Layout.TransportVerifies (layout : Layout) (frame : List UInt8) : Prop :=
  onesSum (layout.pseudoHeader frame ++ frame.drop layout.transport) = 0xffff

/-- The address in the header sums to what the final destination's does; it does if there is no way to go behind it. -/
def Layout.SumsFinal (layout : Layout) (frame : List UInt8) : Prop :=
  layout.ipv4 = true ∨ (wordsOf (layout.finalDestination frame)).sum % 0xffff =
    (wordsOf (layout.headerDestination frame)).sum % 0xffff

instance (layout : Layout) (frame : List UInt8) : Decidable (layout.TransportVerifies frame) :=
  inferInstanceAs (Decidable (_ = _))

instance (layout : Layout) (frame : List UInt8) : Decidable (layout.SumsFinal frame) := inferInstanceAs (Decidable (_ ∨ _))

theorem lastHop_congr {start start' : Nat} {protocol protocol' : UInt8}
    (skipped : Layout.skipExtensions frame count start protocol = .ok (start', protocol')) (low : 8 ≤ start)
    (same : ∀ position, start - 8 ≤ position → position < start' → part[position]? = frame[position]?)
    (destination : List UInt8) :
    lastHop part count start protocol destination = lastHop frame count start protocol destination := by
  induction count generalizing start protocol destination with
  | zero => rfl
  | succ count ih =>
    rw [Layout.skipExtensions] at skipped
    rw [lastHop, lastHop]
    split at skipped
    · next extension =>
      obtain ⟨next, readNext, skipped⟩ := bind_eq_ok.mp skipped
      obtain ⟨length, readLength, deeper⟩ := bind_eq_ok.mp skipped
      have reach := length_skipExtensions deeper
      have size : 8 ≤ (if protocol = 51 then (length.toNat + 2) * 4 else (length.toNat + 1) * 8) := by
        split <;> omega
      have bytes (offset : Nat) (near : offset < 8) : part.getD (start + offset) 0 = frame.getD (start + offset) 0 := by
        rw [getD_eq_getElem?_getD, getD_eq_getElem?_getD, same _ (by omega) (by omega)]
      have first := bytes 0 (by decide)
      rw [Nat.add_zero] at first
      rw [if_pos extension, if_pos extension]
      dsimp only
      rw [first, bytes 1 (by decide), bytes 3 (by decide), byteAt_eq_ok readLength, byteAt_eq_ok readNext]
      generalize (if protocol = 51 then (length.toNat + 2) * 4 else (length.toNat + 1) * 8) = size at *
      rw [window_congr fun index inside => same _ (by omega) (by omega)]
      exact ih deeper (by omega) (fun position low high => same position (by omega) high) _
    · next plain => rw [if_neg plain, if_neg plain]

theorem length_lastHop {start start' : Nat} {protocol protocol' : UInt8}
    (skipped : Layout.skipExtensions frame count start protocol = .ok (start', protocol')) (low : 8 ≤ start)
    (inside : start' ≤ frame.length) {destination : List UInt8} (address : destination.length = 16) :
    (lastHop frame count start protocol destination).length = 16 := by
  induction count generalizing start protocol destination with
  | zero => exact address
  | succ count ih =>
    rw [Layout.skipExtensions] at skipped
    rw [lastHop]
    split at skipped
    · next extension =>
      obtain ⟨next, readNext, skipped⟩ := bind_eq_ok.mp skipped
      obtain ⟨length, readLength, deeper⟩ := bind_eq_ok.mp skipped
      have reach := length_skipExtensions deeper
      rw [if_pos extension]
      dsimp only
      rw [byteAt_eq_ok readNext, byteAt_eq_ok readLength]
      have size : 8 ≤ (if protocol = 51 then (length.toNat + 2) * 4 else (length.toNat + 1) * 8) := by
        split <;> omega
      refine ih deeper (by omega) ?_
      split
      · exact length_window (by omega)
      · exact address
    · next plain => rwa [if_neg plain]

/-- What a segment has to be: a frame with the packet's layout whose lengths,
checksums, sequence number and flags are its own. -/
structure Layout.SegmentOf (layout : Layout) (frame part : List UInt8) (payload : Nat) (tcp : Bool)
    (index count offset : Nat) : Prop where
  parsed : Layout.parse part = .ok layout
  located : layout.payloadStart part tcp = .ok payload
  total : if layout.ipv4 then bigEndian (window part (layout.ip + 2) 2) = part.length - layout.ip
    else bigEndian (window part (layout.ip + 4) 2) = part.length - layout.ip - 40
  datagram : tcp = false → bigEndian (window part (layout.transport + 4) 2) = part.length - layout.transport
  networkVerifies : layout.ipv4 = true → onesSum (window part layout.ip (layout.transport - layout.ip)) = 0xffff
  transportVerifies : layout.TransportVerifies part ↔ layout.SumsFinal frame
  stated : tcp = false → bigEndian (window part (layout.transport + 6) 2) ≠ 0
  sequence : tcp = true → bigEndian (window part (layout.transport + 4) 4) =
    (bigEndian (window frame (layout.transport + 4) 4) + offset) % 2 ^ 32
  finPsh : tcp = true → part.getD (layout.transport + 13) 0 &&& (1 ||| 8) =
    if index + 1 = count then frame.getD (layout.transport + 13) 0 &&& (1 ||| 8) else 0
  cwr : tcp = true → part.getD (layout.transport + 13) 0 &&& 128 =
    if index = 0 then frame.getD (layout.transport + 13) 0 &&& 128 else 0
  flow : flowHash part = flowHash frame

theorem segmentFlags_finPsh (flags : UInt8) (index count : Nat) :
    segmentFlags flags index count &&& (1 ||| 8) = if index + 1 = count then flags &&& (1 ||| 8) else 0 := by
  have apart : ~~~128 &&& (1 ||| 8) = (1 ||| 8 : UInt8) := by decide
  unfold segmentFlags
  dsimp only
  split <;> split <;> simp_all [UInt8.and_assoc]

theorem segmentFlags_cwr (flags : UInt8) (index count : Nat) :
    segmentFlags flags index count &&& 128 = if index = 0 then flags &&& 128 else 0 := by
  have apart : ~~~(1 ||| 8) &&& 128 = (128 : UInt8) := by decide
  unfold segmentFlags
  dsimp only
  split <;> split <;> simp_all [UInt8.and_assoc]

theorem flowHash_congr (parsed : Layout.parse frame = .ok layout) (parsed' : Layout.parse part = .ok layout)
    (network : layout.ip + (if layout.ipv4 then 20 else 40) ≤ layout.transport)
    (same : ∀ position < layout.transport + 4, ¬layout.NetworkField position → part[position]? = frame[position]?) :
    flowHash part = flowHash frame := by
  have windows (first count : Nat) (reach : first + count ≤ layout.transport + 4)
      (apart : ∀ position, first ≤ position → position < first + count → ¬layout.NetworkField position) :
      window part first count = window frame first count :=
    window_congr fun index within => same _ (by omega) (apart _ (by omega) (by omega))
  have behind (position : Nat) (low : layout.ip + 12 ≤ position) : ¬layout.NetworkField position := fun field => by
    have := field.bounds
    omega
  have header : layout.ip + 20 ≤ layout.transport := by
    split at network <;> omega
  rw [flowHash, flowHash, parsed, parsed']
  dsimp only
  rw [windows layout.transport 2 (by omega) fun position low _ => behind position (by omega),
    windows (layout.transport + 2) 2 (by omega) fun position low _ => behind position (by omega)]
  cases isIpv4 : layout.ipv4 with
  | true =>
    simp only [isIpv4, if_true, Layout.NetworkField] at network windows ⊢
    rw [windows (layout.ip + 12) 4 (by omega) (by omega), windows (layout.ip + 16) 4 (by omega) (by omega)]
  | false =>
    simp only [isIpv4, Bool.false_eq_true, if_false, Layout.NetworkField] at network windows ⊢
    rw [windows (layout.ip + 8) 16 (by omega) (by omega), windows (layout.ip + 24) 16 (by omega) (by omega)]

theorem parse_ipv6 (parsed : Layout.parse frame = .ok layout) (ipv6 : layout.ipv4 = false) :
    Layout.skipExtensions frame 8 (layout.ip + 40) (frame.getD (layout.ip + 6) 0) =
      .ok (layout.transport, layout.protocol) := by
  rw [Layout.parse] at parsed
  obtain ⟨kind, _, parsed⟩ := bind_eq_ok.mp parsed
  obtain ⟨⟨ip, inner⟩, _, parsed⟩ := bind_eq_ok.mp parsed
  obtain ⟨⟨transport, protocol, ipv4⟩, found, parsed⟩ := bind_eq_ok.mp parsed
  obtain ⟨_, _, parsed⟩ := bind_eq_ok.mp parsed
  obtain ⟨_, shape⟩ := ite_error_eq_ok.mp parsed
  cases shape
  cases ipv6
  rw [Layout.network] at found
  split at found
  · obtain ⟨_, _, found⟩ := bind_eq_ok.mp found
    obtain ⟨_, found⟩ := ite_error_eq_ok.mp found
    obtain ⟨_, _, found⟩ := bind_eq_ok.mp found
    obtain ⟨_, found⟩ := ite_error_eq_ok.mp found
    obtain ⟨_, _, shape⟩ := bind_eq_ok.mp found
    cases shape
  split at found
  · obtain ⟨_, _, found⟩ := bind_eq_ok.mp found
    obtain ⟨_, found⟩ := ite_error_eq_ok.mp found
    obtain ⟨next, read, found⟩ := bind_eq_ok.mp found
    obtain ⟨⟨start, last⟩, skipped, shape⟩ := bind_eq_ok.mp found
    cases shape
    rw [byteAt_eq_ok read]
    exact skipped
  · cases found

theorem finalDestination_congr (parsed : Layout.parse frame = .ok layout) (ipv6 : layout.ipv4 = false)
    (same : ∀ position < layout.transport, ¬layout.NetworkField position → part[position]? = frame[position]?) :
    layout.headerDestination part = layout.headerDestination frame ∧
      layout.finalDestination part = layout.finalDestination frame := by
  have skipped := parse_ipv6 parsed ipv6
  have reach := length_skipExtensions skipped
  have behind (position : Nat) (low : layout.ip + 6 ≤ position) (high : position < layout.transport) :
      part[position]? = frame[position]? := by
    refine same position high ?_
    simp only [Layout.NetworkField, ipv6, Bool.false_eq_true, if_false]
    omega
  have header : layout.headerDestination part = layout.headerDestination frame :=
    window_congr fun index inside => behind _ (by omega) (by omega)
  have first : part.getD (layout.ip + 6) 0 = frame.getD (layout.ip + 6) 0 := by
    rw [getD_eq_getElem?_getD, getD_eq_getElem?_getD, behind _ (by omega) (by omega)]
  refine ⟨header, ?_⟩
  rw [Layout.finalDestination, Layout.finalDestination, header, first]
  exact lastHop_congr skipped (by omega) (fun position low high => behind position (by omega) high) _

/-- A checksum over the header's own destination is the final one's where the two have the same sum. -/
theorem transportVerifies_iff (parsed : Layout.parse part = .ok layout) (zero : layout.transportChecksum part = 0) :
    layout.TransportVerifies part ↔ layout.SumsFinal part := by
  obtain ⟨network, room⟩ := parse_fits parsed
  have inside : layout.transport ≤ part.length := by omega
  rw [Layout.TransportVerifies, onesSum_eq_full, sum_wordsOf, Layout.pseudoHeader]
  rw [Layout.transportChecksum] at zero
  cases isIpv4 : layout.ipv4 with
  | true =>
    simp only [isIpv4, if_true] at zero network ⊢
    have addresses := @length_window part (layout.ip + 12) 8 (by omega)
    rw [sumWords_append (by simp [addresses]), sumWords_append (by simp [addresses]),
      sumWords_append (by simp [addresses])]
    exact iff_of_true (finishSum_eq_zero.mp zero) (.inl isIpv4)
  | false =>
    simp only [isIpv4, Bool.false_eq_true, if_false] at zero network ⊢
    have skipped := parse_ipv6 parsed isIpv4
    have source := @length_window part (layout.ip + 8) 16 (by omega)
    have header : (layout.headerDestination part).length = 16 := length_window (by omega)
    have final : (layout.finalDestination part).length = 16 := length_lastHop skipped (by omega) inside header
    have both : window part (layout.ip + 8) 32 = window part (layout.ip + 8) 16 ++ layout.headerDestination part := by
      have halves := (take_append_window (part.drop (layout.ip + 8)) 16 16).symm
      rwa [window_drop] at halves
    have named : 0 < sumWords [0, 0, 0, layout.protocol] := by
      rcases room with ⟨tcp, _⟩ | ⟨udp, _⟩
      · rw [tcp]
        decide
      · rw [udp]
        decide
    rw [both, sumWords_append (by simp [source])] at zero
    rw [sumWords_append (by simp [source, final]), sumWords_append (by simp [source, final]),
      sumWords_append (by simp [source, final]), sumWords_append (by simp [source]), Layout.SumsFinal, isIpv4,
      sum_wordsOf, sum_wordsOf]
    have sums := (finishSum_eq_zero.mp zero).2
    simp only [Bool.false_eq_true, false_or]
    omega

theorem sumsFinal_congr (parsed : Layout.parse frame = .ok layout)
    (same : ∀ position < layout.transport, ¬layout.NetworkField position → part[position]? = frame[position]?) :
    layout.SumsFinal part ↔ layout.SumsFinal frame := by
  rw [Layout.SumsFinal, Layout.SumsFinal]
  cases isIpv4 : layout.ipv4 with
  | true => simp
  | false =>
    obtain ⟨header, final⟩ := finalDestination_congr parsed isIpv4 same
    rw [header, final]

theorem segment_spec (parsed : Layout.parse frame = .ok layout) (protocol : tcp = decide (layout.protocol = 6))
    (located : layout.payloadStart frame tcp = .ok payload) (inside : payload ≤ frame.length)
    (made : layout.segment frame payload size count tcp index = .ok part) :
    part.drop payload = window (frame.drop payload) (index * size) size ∧ payload ≤ part.length ∧
      layout.SegmentOf frame part payload tcp index count (index * size) := by
  have network := (parse_fits parsed).1
  have transport := payloadStart_spec located
  have header : layout.ip + 20 ≤ layout.transport := by
    split at network <;> omega
  have ports : layout.transport + 8 ≤ payload := by
    split at transport <;> omega
  rw [Layout.segment] at made
  obtain ⟨headed, patchedNetwork, shape⟩ := bind_eq_ok.mp made
  dsimp only at shape
  have slice : ((frame.drop payload).take (index * size + size)).drop (index * size) =
      window (frame.drop payload) (index * size) size := by
    rw [window, drop_take, Nat.add_sub_cancel_left]
  rw [slice] at patchedNetwork
  have headers : (frame.take payload).length = payload := by
    rw [length_take]
    omega
  generalize whole : frame.take payload ++ window (frame.drop payload) (index * size) size = base at patchedNetwork
  have long : payload ≤ base.length := by
    rw [← whole, length_append, headers]
    omega
  have front (position : Nat) (before : position < payload) : base[position]? = frame[position]? := by
    rw [← whole, getElem?_append_left (by omega), getElem?_take_of_lt before]
  have net := patchNetwork_spec network (by omega) patchedNetwork
  have trans : PatchedTransport layout frame headed _ tcp index count (index * size) :=
    patchTransport_spec (by rw [net.length]; omega)
  generalize layout.patchTransport frame headed tcp index count (index * size) = carried at shape trans
  generalize fieldIs : layout.transport + (if tcp = true then 16 else 6) = field at shape
  have fieldLow : layout.transport + 6 ≤ field ∧ field + 2 ≤ payload := by
    rw [← fieldIs]
    split at transport
    · next isTcp =>
      rw [if_pos isTcp]
      omega
    · next notTcp =>
      rw [if_neg notTcp]
      omega
  have even : 2 ∣ field - layout.transport := by
    subst fieldIs
    rw [Nat.add_sub_cancel_left]
    split <;> decide
  have kept : carried.length = base.length := trans.length.trans net.length
  -- The checksum fills a field that was zero while it was computed.
  obtain ⟨sum, zeroed, filled⟩ := transportChecksum_overwrite network (by omega) even (by omega : field + 2 ≤ carried.length)
  rw [zeroed] at shape
  generalize stated : (if tcp = false ∧ finishSum sum = 0 then 0xffff else finishSum sum) = value at shape
  rw [overwrite_overwrite (by simp) (by simp; omega)] at shape
  have verifies : layout.transportChecksum (overwrite carried field (toBigEndian 2 value.toNat)) = 0 := by
    rw [filled _ (UInt16.toNat_lt _), ← stated]
    split
    · next full => exact finishSum_add_full full.2
    · exact finishSum_add_finishSum sum
  have valueAt : window (overwrite carried field (toBigEndian 2 value.toNat)) field 2 = toBigEndian 2 value.toNat := by
    have written := @window_overwrite_self carried (toBigEndian 2 value.toNat) field (by simp; omega)
    rwa [length_toBigEndian] at written
  cases shape
  have length : (overwrite carried field (toBigEndian 2 value.toNat)).length = base.length :=
    length_overwrite_of_eq kept (by simp; omega)
  generalize finished : overwrite carried field (toBigEndian 2 value.toNat) = segment at verifies valueAt length ⊢
  have offField (position : Nat) (apart : position < field ∨ field + 2 ≤ position) :
      segment[position]? = carried[position]? := by
    rw [← finished]
    exact getElem?_overwrite_of_not_mem (by simp; omega) (by simpa using apart)
  have offHeader (position : Nat) (before : position < layout.transport) : segment[position]? = headed[position]? := by
    rw [offField position (by omega), trans.outside position fun field => by have := field.bounds; omega]
  have offNetwork (position : Nat) (after : layout.transport ≤ position) : headed[position]? = base[position]? := by
    refine net.outside position fun field => ?_
    have := field.bounds
    omega
  have same (position : Nat) (before : position < layout.transport + 4) (plain : ¬layout.NetworkField position) :
      segment[position]? = frame[position]? := by
    rw [offField position (by omega), trans.outside position fun field => by have := field.bounds; omega,
      net.outside position plain, front position (by omega)]
  have parsed' : Layout.parse segment = .ok layout := by
    refine parse_congr parsed (fun position before => same position (by omega)) ?_
    subst protocol
    simp only [decide_eq_true_eq] at transport
    omega
  refine ⟨?_, by omega, ⟨parsed', ?_, ?_, fun notTcp => ?_, fun isIpv4 => ?_,
    (transportVerifies_iff parsed' verifies).trans (sumsFinal_congr parsed fun position before => same position (by omega)),
    fun notTcp => ?_, fun isTcp => ?_,
    fun isTcp => ?_, fun isTcp => ?_, flowHash_congr parsed parsed' network same⟩⟩
  · have tail : segment.drop payload = base.drop payload := by
      apply ext_getElem?
      intro position
      rw [getElem?_drop, getElem?_drop, offField _ (by omega),
        trans.outside _ fun field => by have := field.bounds; omega, offNetwork _ (by omega)]
    rw [tail, ← whole, drop_left' headers]
  · rw [← located, Layout.payloadStart, Layout.payloadStart]
    split
    · next isTcp =>
      rw [if_pos isTcp] at transport
      rw [byteAt_congr]
      rw [offField _ (by rw [← fieldIs, if_pos isTcp]; omega), trans.outside, offNetwork _ (by omega),
        front _ (by omega)]
      rw [Layout.TransportField, if_pos isTcp]
      omega
    · rfl
  · have total := net.total
    rw [length]
    split at network
    · next isIpv4 =>
      rw [if_pos isIpv4] at total ⊢
      rw [← total]
      exact congrArg bigEndian (window_congr fun within small => offHeader _ (by omega))
    · next notIpv4 =>
      rw [if_neg notIpv4] at total ⊢
      rw [← total]
      exact congrArg bigEndian (window_congr fun within small => offHeader _ (by omega))
  · have datagram := trans.datagram notTcp
    have small := net.small
    have fits : base.length - layout.transport < 0x10000 := by
      split at network
      · next isIpv4 =>
        rw [if_pos isIpv4] at small
        omega
      · next notIpv4 =>
        rw [if_neg notIpv4] at small
        omega
    rw [net.length, Nat.mod_eq_of_lt fits] at datagram
    rw [length, ← datagram]
    exact congrArg bigEndian (window_congr fun within small => offField _ (by subst fieldIs; simp [notTcp]; omega))
  · rw [if_pos isIpv4] at network
    rw [onesSum_eq_full_iff, ← net.verifies isIpv4]
    exact congrArg checksum (window_congr fun within small => offHeader _ (by omega))
  · have here : field = layout.transport + 6 := by rw [← fieldIs, notTcp]; rfl
    rw [← here, valueAt, bigEndian_toBigEndian (UInt16.toNat_lt _), ← stated]
    split
    · decide
    · next nonzero =>
      intro zero
      exact nonzero ⟨notTcp, UInt16.toNat_inj.mp zero⟩
  · rw [← trans.sequence isTcp]
    exact congrArg bigEndian (window_congr fun within small => offField _ (by subst fieldIs; simp [isTcp]; omega))
  all_goals
    have flag : segment.getD (layout.transport + 13) 0 =
        segmentFlags (frame.getD (layout.transport + 13) 0) index count := by
      rw [if_pos isTcp] at transport
      have carriedFlag := trans.flags isTcp
      simp only [getD_eq_getElem?_getD] at carriedFlag ⊢
      rw [offField _ (by subst fieldIs; simp [isTcp]), carriedFlag, offNetwork _ (by omega), front _ (by omega)]
    rw [flag]
  · exact segmentFlags_finPsh _ _ _
  · exact segmentFlags_cwr _ _ _

end

theorem flatten_windows (data : List UInt8) (size count : Nat) :
    ((List.range count).map fun index => window data (index * size) size).flatten = data.take (count * size) := by
  induction count with
  | zero => simp
  | succ count ih =>
    rw [range_succ, map_append, flatten_append, ih, map_singleton, flatten_singleton,
      take_append_window, Nat.succ_mul]

def largePacket : List UInt8 :=
  List.replicate 12 0 ++ [8, 0] ++ [0x45, 0, 0, 70, 0, 7, 0, 0, 64, 6, 0, 0, 10, 0, 0, 1, 10, 0, 0, 2] ++
    [0, 80, 31, 144, 255, 255, 255, 250, 0, 0, 0, 1, 0x50, 255, 1, 0, 0, 0, 0, 0] ++
    (List.range 30).map UInt8.ofNat

def largePacketHeader : Header :=
  { flags := needsCsum, gsoType := gsoTcpv4, hdrLen := 54, gsoSize := 100, csumStart := 34, csumOffset := 16 }

/-- A packet that still has to pass its header's destination on the way to another. -/
def routedPacket : List UInt8 :=
  List.replicate 12 0 ++ [0x86, 0xdd] ++ [0x60, 0, 0, 0, 0, 48, 43, 64] ++
    List.replicate 15 0 ++ [1] ++ List.replicate 15 0 ++ [2] ++
    [6, 2, 0, 1, 0, 0, 0, 0] ++ List.replicate 15 0 ++ [3] ++
    [0, 80, 31, 144, 0, 0, 0, 1, 0, 0, 0, 1, 0x50, 24, 1, 0, 0, 0, 0, 0] ++ [1, 2, 3, 4]

def routedPacketHeader : Header :=
  { flags := needsCsum, gsoType := gsoTcpv6, hdrLen := 98, gsoSize := 100, csumStart := 78, csumOffset := 16 }

end Vmlab.Net.Offload
