import Vmlab.Net.Rules

/-!
# Rewritten packets verify

A datagram may be shorter than the payload that carries it. So the transport checksum of a rewritten packet verifies
except where the bytes after the datagram disturb the sum.
-/

namespace Vmlab.Net

open Library Offload List

variable {segment : List UInt8} {field : Nat}

/-- Which end of a packet a rule set rewrites: the destination on the way out,
the source on the way back. -/
inductive Direction where
  | outward
  | homeward

namespace Direction

def addrOffset : Direction → Nat
  | .outward => 16
  | .homeward => 12

def portOffset (ip : Ipv4View) : Direction → Nat
  | .outward => ip.headerLen + 2
  | .homeward => ip.headerLen

end Direction

def RuleSet.judge (rules : RuleSet) (direction : Direction) (checked stamped : Nat) (packet : List UInt8) : Verdict :=
  match direction with
  | .outward => (rules.eval checked stamped packet).2
  | .homeward => (rules.evalReturn checked stamped packet).2

namespace Ipv4View

section

variable (ip : Ipv4View)

def checksumOffset : Nat := if ip.proto = ipprotoTcp then ip.headerLen + 16 else ip.headerLen + 6

def HeaderVerifies : Prop := onesSum (ip.buf.take ip.headerLen) = 0xffff

def covered : List UInt8 :=
  if ip.proto = ipprotoTcp then ip.payload else ip.payload.take (u16At ip.payload 4).toNat

/-- The transport checksum verifies, or the datagram has none. -/
def TransportVerifies : Prop :=
  (ip.proto = ipprotoUdp ∧ u16At ip.payload 6 = 0) ∨
    onesSum (octets ip.src ++ octets ip.dst ++ [0, ip.proto] ++ toBigEndian 2 ip.covered.length ++ ip.covered) = 0xffff

theorem transportVerifies_iff : ip.TransportVerifies ↔
    (ip.proto = ipprotoUdp ∧ u16At ip.payload 6 = 0) ∨ l4Checksum ip.src ip.dst ip.proto ip.covered = some 0 := by
  have small := ip.length_payload_lt
  have fits : ip.covered.length < 0x10000 := by
    rw [covered]
    split
    · omega
    · rw [length_take]
      omega
  rw [TransportVerifies, l4Checksum, if_pos fits, Option.some_inj, internetChecksum, ← onesSum_eq_full_iff]

end

instance (ip : Ipv4View) : Decidable ip.HeaderVerifies := inferInstanceAs (Decidable (_ = _))

instance (ip : Ipv4View) : Decidable ip.TransportVerifies := inferInstanceAs (Decidable (_ ∨ _))

def Unfragmented (ip : Ipv4View) : Prop := u16At ip.buf 6 &&& 0x3FFF = 0

instance (ip : Ipv4View) : Decidable ip.Unfragmented := inferInstanceAs (Decidable (_ = _))

def Carries (ip : Ipv4View) : Prop :=
  (ip.proto = ipprotoTcp ∧ tcpWellFormed ip.payload) ∨ (ip.proto = ipprotoUdp ∧ udpWellFormed ip.payload)

def surplus (ip : Ipv4View) : Nat :=
  let data := ip.payload.drop udpHeaderLen
  let len := (u16At ip.payload 4).toNat - udpHeaderLen
  data.length - len + (sumWords data - sumWords (data.take len))

/-- The rewritten checksum covers what it should. -/
def SumsRight (ip : Ipv4View) : Prop := ip.proto = ipprotoTcp ∨ u16At ip.payload 6 = 0 ∨ ip.surplus % 0xffff = 0

end Ipv4View

def Rewritable (direction : Direction) (ip : Ipv4View) (position : Nat) : Prop :=
  (10 ≤ position ∧ position < 12) ∨
    (direction.addrOffset ≤ position ∧ position < direction.addrOffset + 4) ∨
    (direction.portOffset ip ≤ position ∧ position < direction.portOffset ip + 2) ∨
    (ip.checksumOffset ≤ position ∧ position < ip.checksumOffset + 2)

/-- A rewritten packet is well formed, verifies and is the original but for what
a rewrite may change. -/
structure RewrittenRight (direction : Direction) (ip : Ipv4View) (out : List UInt8) : Prop where
  length : out.length = ip.totalLen.toNat
  elsewhere : ∀ position < ip.totalLen.toNat, ¬ Rewritable direction ip position → out[position]? = ip.buf[position]?
  verifies : ∃ new, Ipv4View.parse out = some new ∧ new.HeaderVerifies ∧ new.TransportVerifies

variable {packet : List UInt8}

section

variable {ip : Ipv4View} {out : List UInt8}

def redirected (direction : Direction) (ip : Ipv4View) (endpoint : Ipv4Addr × Option UInt16) : List UInt8 :=
  withPort ip (direction.portOffset ip) (some endpoint)
    (withAddr direction.addrOffset (some endpoint) (ip.buf.take ip.totalLen.toNat))

theorem parts_of_judge {rules : RuleSet} {direction : Direction} {checked stamped : Nat}
    (parsed : Ipv4View.parse packet = some ip) (judged : rules.judge direction checked stamped packet = .rewrite out) :
    ∃ endpoint, (withTransportChecksum ip (redirected direction ip endpoint)).map (withHeaderChecksum ip.headerLen) =
      some out := by
  cases direction with
  | outward =>
    unfold RuleSet.judge RuleSet.eval at judged
    simp only [parsed] at judged
    split at judged
    · next rule _ =>
      split at judged
      · next found =>
        cases judged
        rw [rewritePacket, withPort_none, withAddr_none] at found
        exact ⟨_, found⟩
      · cases judged
    · split at judged <;> cases judged
  | homeward =>
    unfold RuleSet.judge RuleSet.evalReturn at judged
    simp only [parsed] at judged
    split at judged
    · cases judged
    split at judged
    · cases judged
    split at judged
    · split at judged
      · next found =>
        cases judged
        rw [rewritePacket, withPort_none, withAddr_none] at found
        exact ⟨_, found⟩
      · cases judged
    · cases judged

theorem getElem?_window (bytes : List UInt8) (position : Nat) : bytes[position]? = (window bytes position 1)[0]? := by
  simp [window]

theorem redirected_spec (direction : Direction) (ip : Ipv4View) (endpoint : Ipv4Addr × Option UInt16) :
    SameReads (fun start count => (start + count ≤ direction.addrOffset ∨ direction.addrOffset + 4 ≤ start) ∧
        (start + count ≤ direction.portOffset ip ∨ direction.portOffset ip + 2 ≤ start))
      (ip.buf.take ip.totalLen.toNat) (redirected direction ip endpoint) := by
  have header := ip.headerLen_ge
  have ordered := ip.headerLen_le_totalLen
  have within := ip.totalLen_le
  have clipped := ip.length_clipped
  have addr : direction.addrOffset + 4 ≤ 20 := by cases direction <;> decide
  have port : direction.portOffset ip + 2 ≤ ip.headerLen + 4 := by
    cases direction <;> simp only [Direction.portOffset] <;> omega
  have addressed := (@withAddr_spec (ip.buf.take ip.totalLen.toNat) direction.addrOffset endpoint.1 endpoint.2 (by omega)).1
  have ported := (@withPort_spec ip (withAddr direction.addrOffset (some endpoint) (ip.buf.take ip.totalLen.toNat))
    (direction.portOffset ip) (some endpoint) port).1
  exact ⟨ported.length.trans addressed.length, fun start count known =>
    (ported.reads start count known.2).trans (addressed.reads start count known.1)⟩

theorem length_redirected (direction : Direction) (ip : Ipv4View) (endpoint : Ipv4Addr × Option UInt16) :
    (redirected direction ip endpoint).length = ip.totalLen.toNat := by
  have within := ip.totalLen_le
  rw [(redirected_spec direction ip endpoint).length, length_take]
  omega

end

def pseudoSum (src dst : Ipv4Addr) (proto : UInt8) : Nat := sumWords (octets src ++ octets dst ++ [0, proto])

variable {proto : UInt8} {src dst : Ipv4Addr}

theorem l4Checksum_eq (fits : segment.length < 0x10000) : l4Checksum src dst proto segment =
      some (finishSum (pseudoSum src dst proto + segment.length + sumWords segment)) := by
  have even : 2 ∣ (octets src ++ octets dst ++ [0, proto]).length := by simp [octets]
  have even' : 2 ∣ (octets src ++ octets dst ++ [0, proto] ++ toBigEndian 2 segment.length).length := by
    simp [octets]
  rw [l4Checksum, if_pos fits, internetChecksum, checksum, sumWords_append even', sumWords_append even,
    sumWords_toBigEndian fits]
  rfl

variable {bare : Nat}

theorem l4Checksum_completed
    (even : 2 ∣ field) (inside : field + 2 ≤ segment.length) (fits : segment.length < 0x10000) (word : UInt16)
    (sum : bare = pseudoSum src dst proto + segment.length + sumWords (overwrite segment field [0, 0])) :
    l4Checksum src dst proto (overwrite segment field (u16Bytes word)) = some (finishSum (bare + word.toNat)) := by
  have size : (overwrite segment field (u16Bytes word)).length = segment.length :=
    length_overwrite (by rw [length_u16Bytes]; exact inside)
  rw [l4Checksum_eq (by rw [size]; exact fits), size, u16Bytes, sumWords_overwrite even inside word.toNat_lt, sum]
  simp only [Nat.add_assoc]

theorem sumWords_end {len : Nat} (header : udpHeaderLen ≤ len) (inside : len ≤ segment.length) :
    sumWords segment - sumWords (segment.take len) =
      sumWords (segment.drop udpHeaderLen) - sumWords ((segment.drop udpHeaderLen).take (len - udpHeaderLen)) := by
  have size : (segment.take udpHeaderLen).length = udpHeaderLen := by
    rw [length_take]
    omega
  have even : 2 ∣ (segment.take udpHeaderLen).length := by
    rw [size]
    decide
  have whole := sumWords_append even (segment.drop udpHeaderLen)
  have part := sumWords_append even ((segment.drop udpHeaderLen).take (len - udpHeaderLen))
  have split : segment.take len = segment.take udpHeaderLen ++ (segment.drop udpHeaderLen).take (len - udpHeaderLen) := by
    conv_lhs => rw [← Nat.add_sub_of_le header, take_add]
  rw [take_append_drop] at whole
  rw [split, whole, part]
  omega

section

variable {ip : Ipv4View} {changed : List UInt8} {header : Nat} {bytes : List UInt8}

theorem overwrite_segment (patch : List UInt8) (inside : header + field + patch.length ≤ bytes.length) :
    (overwrite bytes (header + field) patch).drop header = overwrite (bytes.drop header) field patch := by
  rw [drop_overwrite (Nat.le_add_right ..) inside, Nat.add_sub_cancel_left]

theorem cleared_sum (room : header + field + 2 ≤ changed.length)
    (small : changed.length < 0x10000) (src dst : Ipv4Addr) (proto : UInt8) :
    field + 2 ≤ (changed.drop header).length ∧ (changed.drop header).length < 0x10000 ∧
      ∃ bare, bare = pseudoSum src dst proto + (changed.drop header).length +
          sumWords (overwrite (changed.drop header) field [0, 0]) ∧
        l4Checksum src dst proto ((overwrite changed (header + field) [0, 0]).drop header) = some (finishSum bare) := by
  have inside : field + 2 ≤ (changed.drop header).length := by
    rw [length_drop]
    omega
  have fits : (changed.drop header).length < 0x10000 := by
    rw [length_drop]
    omega
  have size : (overwrite (changed.drop header) field [0, 0]).length = (changed.drop header).length :=
    length_overwrite inside
  refine ⟨inside, fits, _, rfl, ?_⟩
  rw [overwrite_segment [0, 0] room, l4Checksum_eq (size.trans_lt fits), size]

theorem transport_tcp (tcp : ip.proto = ipprotoTcp) (room : ip.headerLen + 18 ≤ changed.length)
    (small : changed.length < 0x10000) :
    ∃ word, withTransportChecksum ip changed = some (overwrite changed (ip.headerLen + 16) (u16Bytes word)) ∧
      l4Checksum (ipv4At changed 12) (ipv4At changed 16) ipprotoTcp
        ((overwrite changed (ip.headerLen + 16) (u16Bytes word)).drop ip.headerLen) = some 0 := by
  obtain ⟨inside, fits, bare, sum, summed⟩ := cleared_sum room small (ipv4At changed 12) (ipv4At changed 16) ipprotoTcp
  refine ⟨finishSum bare, ?_, ?_⟩
  · rw [withTransportChecksum]
    dsimp only
    rw [if_pos ⟨tcp, room⟩, summed, Option.map_some, overwrite_overwrite (by rw [length_u16Bytes]; rfl)
      (by rw [length_u16Bytes]; exact room)]
  · rw [overwrite_segment _ (by rw [length_u16Bytes]; exact room),
      l4Checksum_completed (by decide) inside fits _ sum, finishSum_add_finishSum]

theorem sent_spec {word : UInt16} (sent : word = if finishSum bare = 0 then 0xFFFF else finishSum bare) :
    word ≠ 0 ∧ (bare + word.toNat) % 0xffff = 0 := by
  split at sent
  · next zero =>
    subst sent
    refine ⟨by decide, ?_⟩
    have multiple := (finishSum_eq_zero.mp zero).2
    show (bare + 0xffff) % 0xffff = 0
    omega
  · next nonzero =>
    subst sent
    exact ⟨nonzero, (finishSum_eq_zero.mp (finishSum_add_finishSum bare)).2⟩

theorem sumWords_cleared {field : Nat} (even : 2 ∣ field) (inside : field + 2 ≤ bytes.length) :
    sumWords bytes = sumWords (overwrite bytes field [0, 0]) + bigEndian (window bytes field 2) := by
  have size : (window bytes field 2).length = 2 := length_window inside
  have small : bigEndian (window bytes field 2) < 0x10000 := by
    have bound := bigEndian_lt (window bytes field 2)
    rw [size] at bound
    exact bound
  have same : overwrite bytes field (toBigEndian 2 (bigEndian (window bytes field 2))) = bytes := by
    have word := toBigEndian_bigEndian (window bytes field 2)
    rw [size] at word
    rw [word, overwrite, take_append_window, size, take_append_drop]
  have total := sumWords_overwrite even inside small
  rwa [same] at total

theorem transport_udp (udp : ip.proto = ipprotoUdp) (room : ip.headerLen + 8 ≤ changed.length)
    (small : changed.length < 0x10000) (summing : u16At changed (ip.headerLen + 6) ≠ 0) : ∃ word : UInt16, word ≠ 0 ∧
      withTransportChecksum ip changed = some (overwrite changed (ip.headerLen + 6) (u16Bytes word)) ∧
      ∀ len, 8 ≤ len → len ≤ (changed.drop ip.headerLen).length →
        (l4Checksum (ipv4At changed 12) (ipv4At changed 16) ipprotoUdp
            (((overwrite changed (ip.headerLen + 6) (u16Bytes word)).drop ip.headerLen).take len) = some 0 ↔
          ((changed.drop ip.headerLen).length - len +
            (sumWords (changed.drop ip.headerLen) - sumWords ((changed.drop ip.headerLen).take len))) % 0xffff = 0) := by
  obtain ⟨inside, fits, bare, sum, summed⟩ := cleared_sum room small (ipv4At changed 12) (ipv4At changed 16) ipprotoUdp
  have patched (word : UInt16) : (overwrite changed (ip.headerLen + 6) (u16Bytes word)).drop ip.headerLen =
      overwrite (changed.drop ip.headerLen) 6 (u16Bytes word) := overwrite_segment _ (by rw [length_u16Bytes]; exact room)
  generalize changed.drop ip.headerLen = segment at sum patched inside fits ⊢
  obtain ⟨word, sent⟩ : ∃ word : UInt16, word = if finishSum bare = 0 then 0xFFFF else finishSum bare := ⟨_, rfl⟩
  obtain ⟨nonzero, complete⟩ : word ≠ 0 ∧ (bare + word.toNat) % 0xffff = 0 := sent_spec sent
  refine ⟨word, nonzero, ?_, fun len header inside' => ?_⟩
  · rw [withTransportChecksum]
    dsimp only
    have other : ¬ (ip.proto = ipprotoTcp ∧ ip.headerLen + 18 ≤ changed.length) := fun tcp =>
      absurd (udp.symm.trans tcp.1) (by decide)
    rw [if_neg other, if_pos ⟨udp, room, summing⟩, summed, Option.map_some, ← sent,
      overwrite_overwrite (by rw [length_u16Bytes]; rfl) (by rw [length_u16Bytes]; exact room)]
  have short : (segment.take len).length = len := by
    rw [length_take]
    omega
  have whole := @sumWords_cleared segment 6 (by decide) inside
  have part := @sumWords_cleared (segment.take len) 6 (by decide) (by omega)
  rw [window_take (by omega)] at part
  have less := sumWords_take_le segment len
  have positive : 0 < word.toNat := by
    rw [Nat.pos_iff_ne_zero]
    exact fun zero => nonzero (UInt16.toNat_inj.mp zero)
  rw [patched, take_overwrite (by rw [length_u16Bytes]; omega) (by rw [length_u16Bytes]; exact inside),
    l4Checksum_completed (by decide) (by omega) (by omega) _ rfl, Option.some_inj, finishSum_eq_zero, short]
  omega

end

section

variable {ip : Ipv4View} {changed third : List UInt8}

theorem finished_view (length : third.length = ip.totalLen.toNat)
    (start : ∀ start count, start + count ≤ 10 → window third start count = window ip.buf start count) :
    ∃ new, Ipv4View.parse (withHeaderChecksum ip.headerLen third) = some new ∧ new.HeaderVerifies ∧
      new.proto = ip.proto ∧ new.payload = third.drop ip.headerLen ∧ new.src = ipv4At third 12 ∧
      new.dst = ipv4At third 16 := by
  have header := ip.headerLen_ge
  have ordered := ip.headerLen_le_totalLen
  have finished := @withHeaderChecksum_spec third ip.headerLen (by omega)
  obtain ⟨new, parsed, same, proto, layout, total⟩ :=
    @parse_of_start ip (withHeaderChecksum ip.headerLen third) (finished.length.trans length) fun first count early =>
      (finished.reads first count (.inl early)).trans (start first count early)
  have cleared : (overwrite third 10 [0, 0]).take ip.headerLen = overwrite (third.take ip.headerLen) 10 [0, 0] :=
    take_overwrite (by show 12 ≤ _; omega) (by show 12 ≤ _; omega)
  have written : withHeaderChecksum ip.headerLen third =
      overwrite third 10 (u16Bytes (internetChecksum (overwrite (third.take ip.headerLen) 10 [0, 0]))) := by
    rw [withHeaderChecksum, cleared, overwrite_overwrite (by rw [length_u16Bytes]; rfl) (by rw [length_u16Bytes]; omega)]
  refine ⟨new, parsed, ?_, proto, ?_, ?_, ?_⟩
  · rw [Ipv4View.HeaderVerifies, onesSum_eq_full_iff, layout, same, written,
      take_overwrite (by rw [length_u16Bytes]; omega) (by rw [length_u16Bytes]; omega)]
    exact checksum_overwrite (by decide) (by rw [length_take]; omega)
  · rw [Ipv4View.payload, layout, total, same, take_of_length_le (by rw [finished.length, length]), written]
    exact drop_overwrite_after (by rw [length_u16Bytes]; omega) (by omega)
  · show ipv4From (window new.buf 12 4) = _
    rw [same, finished.reads 12 4 (by omega)]
    rfl
  · show ipv4From (window new.buf 16 4) = _
    rw [same, finished.reads 16 4 (by omega)]
    rfl

theorem rewrittenRight_iff {direction : Direction} {endpoint : Ipv4Addr × Option UInt16}
    (room : ip.checksumOffset + 2 ≤ ip.totalLen.toNat)
    (summed : SameReads (fun start count => start + count ≤ ip.checksumOffset ∨ ip.checksumOffset + 2 ≤ start)
      (redirected direction ip endpoint) third) :
    ∃ new : Ipv4View, new.proto = ip.proto ∧ new.payload = third.drop ip.headerLen ∧
      new.src = ipv4At (redirected direction ip endpoint) 12 ∧ new.dst = ipv4At (redirected direction ip endpoint) 16 ∧
      (RewrittenRight direction ip (withHeaderChecksum ip.headerLen third) ↔ new.TransportVerifies) := by
  have header := ip.headerLen_ge
  have within := ip.totalLen_le
  have clipped := ip.length_clipped
  have changed := redirected_spec direction ip endpoint
  have addr : 12 ≤ direction.addrOffset := by cases direction <;> decide
  have port : ip.headerLen ≤ direction.portOffset ip := by
    cases direction <;> simp only [Direction.portOffset] <;> omega
  have field : ip.headerLen + 6 ≤ ip.checksumOffset := by
    unfold Ipv4View.checksumOffset
    split <;> omega
  have length : third.length = ip.totalLen.toNat := by rw [summed.length, changed.length, clipped]
  obtain ⟨new, parsed, verifies, proto, payload, src, dst⟩ := @finished_view ip third length fun start count early => by
    rw [summed.reads start count (.inl (by omega)), changed.reads start count ⟨.inl (by omega), .inl (by omega)⟩,
      window_take (by omega)]
  have finished := @withHeaderChecksum_spec third ip.headerLen (by omega)
  refine ⟨new, proto, payload, ?_, ?_, fun right => ?_, fun transport => ⟨finished.length.trans length, ?_, ?_⟩⟩
  · rw [src, ipv4At, ipv4At, summed.reads 12 4 (.inl (by omega))]
  · rw [dst, ipv4At, ipv4At, summed.reads 16 4 (.inl (by omega))]
  · obtain ⟨other, found, _, transport⟩ := right.verifies
    cases parsed.symm.trans found
    exact transport
  · intro position inside kept
    obtain ⟨notHeader, kept⟩ := not_or.mp kept
    obtain ⟨notAddr, kept⟩ := not_or.mp kept
    obtain ⟨notPort, notField⟩ := not_or.mp kept
    rw [getElem?_window, finished.reads position 1 (by omega), summed.reads position 1 (by omega),
      changed.reads position 1 ⟨by omega, by omega⟩, window_take (by omega), ← getElem?_window]
  · exact ⟨new, parsed, verifies, transport⟩

end

theorem patched_reads {ip : Ipv4View} (changed : List UInt8) (word : UInt16)
    (place : ip.checksumOffset = field) (room : field + 2 ≤ changed.length) :
    SameReads (fun start count => start + count ≤ ip.checksumOffset ∨ ip.checksumOffset + 2 ≤ start) changed
      (overwrite changed field (u16Bytes word)) := by
  refine sameReads_overwrite (by rw [length_u16Bytes]; exact room) fun start count known => ?_
  rw [length_u16Bytes, ← place]
  exact known

theorem rewritten_tcp {ip : Ipv4View} {direction : Direction} {endpoint : Ipv4Addr × Option UInt16}
    {third : List UInt8} (summed : withTransportChecksum ip (redirected direction ip endpoint) = some third)
    (tcp : ip.proto = ipprotoTcp) (wellFormed : tcpWellFormed ip.payload) :
    RewrittenRight direction ip (withHeaderChecksum ip.headerLen third) := by
  have bound := ip.totalLen.toNat_lt
  have size := length_payload ip
  have least : 20 ≤ ip.payload.length := wellFormed.1
  have length := length_redirected direction ip endpoint
  have place : ip.checksumOffset = ip.headerLen + 16 := if_pos tcp
  obtain ⟨word, written, verifies⟩ :=
    @transport_tcp ip (redirected direction ip endpoint) tcp (by omega) (by rw [length]; exact bound)
  cases summed.symm.trans written
  obtain ⟨new, proto, payload, src, dst, right⟩ :=
    rewrittenRight_iff (by omega) (patched_reads (redirected direction ip endpoint) word place (by omega))
  refine right.mpr (new.transportVerifies_iff.mpr (.inr ?_))
  rw [Ipv4View.covered, if_pos (proto.trans tcp), proto, tcp, src, dst, payload]
  exact verifies

section

variable {ip : Ipv4View} {direction : Direction} {endpoint : Ipv4Addr × Option UInt16}

theorem redirected_data {start count : Nat} (late : 4 ≤ start)
    (inside : ip.headerLen + start + count ≤ ip.totalLen.toNat) :
    window (redirected direction ip endpoint) (ip.headerLen + start) count = window ip.payload start count := by
  have header := ip.headerLen_ge
  have port : direction.portOffset ip + 2 ≤ ip.headerLen + 4 := by
    cases direction <;> simp only [Direction.portOffset] <;> omega
  have addr : direction.addrOffset + 4 ≤ ip.headerLen := by
    cases direction <;> simp only [Direction.addrOffset] <;> omega
  rw [(redirected_spec direction ip endpoint).reads _ _ ⟨by omega, by omega⟩, window_take (by omega),
    window_payload (by omega)]

theorem surplus_redirected (wellFormed : udpWellFormed ip.payload) :
    let segment := (redirected direction ip endpoint).drop ip.headerLen
    let len := (u16At ip.payload 4).toNat
    ip.surplus = segment.length - len + (sumWords segment - sumWords (segment.take len)) := by
  obtain ⟨least, headed, ends⟩ : 8 ≤ ip.payload.length ∧ 8 ≤ (u16At ip.payload 4).toNat ∧
    (u16At ip.payload 4).toNat ≤ ip.payload.length := wellFormed
  have size := length_payload ip
  have length := length_redirected direction ip endpoint
  have whole (bytes : List UInt8) (start : Nat) : bytes.drop start = window bytes start (bytes.length - start) := by
    rw [window, take_of_length_le (by rw [length_drop])]
  have data : (redirected direction ip endpoint).drop (ip.headerLen + udpHeaderLen) = ip.payload.drop udpHeaderLen := by
    have late : 4 ≤ udpHeaderLen := by decide
    have heads : udpHeaderLen = 8 := rfl
    rw [whole, whole, length, redirected_data late (by omega), size, Nat.sub_sub]
  have segmentSize : ((redirected direction ip endpoint).drop ip.headerLen).length = ip.payload.length := by
    rw [length_drop, length, size]
  dsimp only
  rw [sumWords_end headed (by omega), segmentSize, drop_drop, data, Ipv4View.surplus, length_drop]
  have heads : udpHeaderLen = 8 := rfl
  omega

theorem rewritten_udp {third : List UInt8}
    (summed : withTransportChecksum ip (redirected direction ip endpoint) = some third)
    (udp : ip.proto = ipprotoUdp) (wellFormed : udpWellFormed ip.payload) :
    RewrittenRight direction ip (withHeaderChecksum ip.headerLen third) ↔
      u16At ip.payload 6 = 0 ∨ ip.surplus % 0xffff = 0 := by
  have bound := ip.totalLen.toNat_lt
  have size := length_payload ip
  have notTcp : ip.proto ≠ ipprotoTcp := fun tcp => absurd (udp.symm.trans tcp) (by decide)
  have surplus := @surplus_redirected ip direction endpoint wellFormed
  obtain ⟨least, headed, ends⟩ : 8 ≤ ip.payload.length ∧ 8 ≤ (u16At ip.payload 4).toNat ∧
    (u16At ip.payload 4).toNat ≤ ip.payload.length := wellFormed
  have length := length_redirected direction ip endpoint
  have place : ip.checksumOffset = ip.headerLen + 6 := if_neg notTcp
  have field : u16At (redirected direction ip endpoint) (ip.headerLen + 6) = u16At ip.payload 6 :=
    congrArg (fun bytes => UInt16.ofNat (bigEndian bytes)) (redirected_data (by decide) (by omega))
  by_cases unsummed : u16At ip.payload 6 = 0
  · have skipped : withTransportChecksum ip (redirected direction ip endpoint) = some (redirected direction ip endpoint) := by
      rw [withTransportChecksum]
      dsimp only
      rw [if_neg fun tcp => notTcp tcp.1, if_neg fun sums => sums.2.2 (field.trans unsummed)]
    cases summed.symm.trans skipped
    obtain ⟨new, proto, payload, src, dst, right⟩ := rewrittenRight_iff (by omega) (.refl _ (redirected direction ip endpoint))
    refine right.trans (iff_of_true (.inl ⟨proto.trans udp, ?_⟩) (.inl unsummed))
    rw [payload, u16At, window_drop]
    exact field.trans unsummed
  obtain ⟨word, nonzero, written, verifies⟩ := @transport_udp ip (redirected direction ip endpoint) udp (by omega)
    (by rw [length]; exact bound) (by rw [field]; exact unsummed)
  cases summed.symm.trans written
  obtain ⟨new, proto, payload, src, dst, right⟩ :=
    rewrittenRight_iff (by omega) (patched_reads (redirected direction ip endpoint) word place (by omega))
  have sent : u16At new.payload 6 = word := by
    rw [payload, u16At, window_drop]
    exact u16At_overwrite word (by omega)
  have len : u16At new.payload 4 = u16At ip.payload 4 := by
    rw [payload, u16At, window_drop, window_overwrite_of_disjoint (by rw [length_u16Bytes]; omega) (.inl (by omega)),
      redirected_data (by decide) (by omega)]
    rfl
  have segmentSize : ((redirected direction ip endpoint).drop ip.headerLen).length = ip.payload.length := by
    rw [length_drop, length, size]
  rw [right, new.transportVerifies_iff, Ipv4View.covered, if_neg (by rw [proto]; exact notTcp), sent, len, proto, udp, src,
    dst, payload, verifies _ headed (by omega), ← surplus]
  simp [nonzero, unsummed]

end

/-- A rewritten packet is right exactly when the sum that was written covers
what it should. -/
theorem rewritten_right_iff (rules : RuleSet) (direction : Direction) (checked stamped : Nat) (packet : List UInt8)
    (ip : Ipv4View) (out : List UInt8) (parsed : Ipv4View.parse packet = some ip) (carries : ip.Carries)
    (judged : rules.judge direction checked stamped packet = .rewrite out) :
    RewrittenRight direction ip out ↔ ip.SumsRight := by
  obtain ⟨endpoint, made⟩ := parts_of_judge parsed judged
  obtain ⟨third, summed, rfl⟩ := Option.map_eq_some_iff.mp made
  rcases carries with ⟨tcp, wellFormed⟩ | ⟨udp, wellFormed⟩
  · exact iff_of_true (rewritten_tcp summed tcp wellFormed) (.inl tcp)
  · have notTcp : ip.proto ≠ ipprotoTcp := fun tcp => absurd (udp.symm.trans tcp) (by decide)
    exact (rewritten_udp summed udp wellFormed).trans (or_iff_right notTcp).symm

def movedGateway : RuleSet :=
  (RuleSet.new.addRedirect { fromHost := ⟨0x0AD50001, none⟩, toHost := ⟨0x0AD50063, some 5353⟩, proto := none }).1

def shortDatagram : List UInt8 :=
  [0x45, 0, 0, 28, 0, 0, 0, 0, 64, 17, 101, 29, 10, 213, 0, 10, 10, 213, 0, 1] ++ [15, 160, 0, 53, 0, 8, 218, 84]

def trailedDatagram : List UInt8 :=
  [0x45, 0, 0, 30, 0, 0, 0, 0, 64, 17, 101, 27, 10, 213, 0, 10, 10, 213, 0, 1] ++ [15, 160, 0, 53, 0, 8, 218, 84, 1, 2]

def outcome (packet : List UInt8) : Option Bool :=
  match movedGateway.judge .outward 0 0 packet with
  | .rewrite out => (Ipv4View.parse out).map fun new => decide new.TransportVerifies
  | _ => none

theorem rewrite_of_outcome {verifies : Bool} (found : outcome packet = some verifies) :
    ∃ out, movedGateway.judge .outward 0 0 packet = .rewrite out ∧
      (Ipv4View.parse out).map (fun new => decide new.TransportVerifies) = some verifies := by
  unfold outcome at found
  split at found
  · next out judged => exact ⟨out, judged, found⟩
  · cases found

theorem short_datagram_rewritten_right : ∃ ip out, Ipv4View.parse shortDatagram = some ip ∧ ip.Carries ∧
    movedGateway.judge .outward 0 0 shortDatagram = .rewrite out ∧ RewrittenRight .outward ip out := by
  have parsed : Ipv4View.parse shortDatagram = some ⟨shortDatagram, by decide⟩ := by rfl
  have carries : Ipv4View.Carries ⟨shortDatagram, by decide⟩ := .inr ⟨by decide, by decide⟩
  have sums : Ipv4View.SumsRight ⟨shortDatagram, by decide⟩ := .inr (.inr (by decide +kernel))
  obtain ⟨out, judged, _⟩ := @rewrite_of_outcome shortDatagram true (by decide +kernel)
  exact ⟨_, out, parsed, carries, judged,
    (rewritten_right_iff movedGateway .outward 0 0 shortDatagram _ out parsed carries judged).mpr sums⟩

/-- Two bytes after a datagram end up in its checksum. -/
theorem trailed_datagram_rewritten_wrong : ∃ ip out, Ipv4View.parse trailedDatagram = some ip ∧ ip.Unfragmented ∧
    ip.Carries ∧ ip.HeaderVerifies ∧ ip.TransportVerifies ∧
    movedGateway.judge .outward 0 0 trailedDatagram = .rewrite out ∧ ¬ RewrittenRight .outward ip out := by
  have parsed : Ipv4View.parse trailedDatagram = some ⟨trailedDatagram, by decide⟩ := by rfl
  have carries : Ipv4View.Carries ⟨trailedDatagram, by decide⟩ := .inr ⟨by decide, by decide⟩
  obtain ⟨out, judged, outcome⟩ := @rewrite_of_outcome trailedDatagram false (by decide +kernel)
  refine ⟨_, out, parsed, by decide +kernel, carries, by decide +kernel, by decide +kernel, judged, fun right => ?_⟩
  obtain ⟨new, found, -, verifies⟩ := right.verifies
  simp [found, verifies] at outcome

end Vmlab.Net
