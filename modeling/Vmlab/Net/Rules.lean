import Vmlab.Net.Frame

/-!
# Filter and redirect rules

Redirects rewrite the destination of a guest packet and record how to undo it (`src/net/rules.rs`). Instants are
milliseconds, and each evaluation says when it looked at the table and when it stamped its entry.
-/

namespace Vmlab.Net

open Library

def connIdle : Nat := 300000

inductive L4Proto where
  | tcp
  | udp
  | icmp
  deriving DecidableEq

structure HostPort where
  ip : Ipv4Addr
  port : Option UInt16

structure RedirectRule where
  fromHost : HostPort
  toHost : HostPort
  proto : Option L4Proto

structure BlockRule where
  cidr : Ipv4Net
  proto : Option L4Proto
  port : Option UInt16

inductive Verdict where
  | pass
  | drop (reply : Option (List UInt8))
  | rewrite (packet : List UInt8)

/-- A translation entry's key, from the reply's point of view: `src` is the
redirect target and `dst` the guest. An echo identifier stands in for a port. -/
structure ConnKey where
  src : Ipv4Addr
  sport : UInt16
  dst : Ipv4Addr
  dport : UInt16
  proto : UInt8
  deriving DecidableEq

structure RevVal where
  origIp : Ipv4Addr
  origPort : Option UInt16
  last : Nat

abbrev ConnTable := ConnKey → Option RevVal

structure Meta where
  l4 : Option L4Proto
  dstPort : Option UInt16
  connPorts : Option (UInt16 × UInt16)

def Meta.of (ip : Ipv4View) : Meta :=
  if ip.proto = ipprotoTcp then
    let tcp := TcpView.parse ip.payload
    { l4 := some .tcp
      dstPort := tcp.map TcpView.dstPort
      connPorts := tcp.map fun tcp => (tcp.srcPort, tcp.dstPort) }
  else if ip.proto = ipprotoUdp then
    let udp := UdpView.parse ip.payload
    { l4 := some .udp
      dstPort := udp.map UdpView.dstPort
      connPorts := udp.map fun udp => (udp.srcPort, udp.dstPort) }
  else if ip.proto = ipprotoIcmp then
    { l4 := some .icmp
      dstPort := none
      connPorts := (IcmpView.parse ip.payload).bind fun icmp =>
        if icmp.icmpType = icmpEchoRequest then some (icmp.identifier, 0)
        else if icmp.icmpType = icmpEchoReply then some (0, icmp.identifier)
        else none }
  else { l4 := none, dstPort := none, connPorts := none }

structure RuleSet where
  nextId : Nat
  redirects : List (Nat × RedirectRule)
  blocks : List (Nat × BlockRule)
  conns : ConnTable

def portAndProtoMatch (proto : Option L4Proto) (port : Option UInt16) (packet : Meta) : Bool :=
  (proto = none ∨ packet.l4 = proto) ∧ (port = none ∨ packet.dstPort = port)

def moreSpecific {ρ : Type} (beats : ρ → ρ → Bool) (best : Option ρ) (rule : ρ) : Option ρ :=
  match best with
  | none => some rule
  | some best => if beats rule best then some rule else some best

namespace RuleSet

def new : RuleSet := { nextId := 0, redirects := [], blocks := [], conns := fun _ => none }

section

variable (rules : RuleSet)

def addBlock (rule : BlockRule) : RuleSet × Nat :=
  let id := rules.nextId + 1
  ({ rules with nextId := id, blocks := rules.blocks ++ [(id, rule)] }, id)

def addRedirect (rule : RedirectRule) : RuleSet × Nat :=
  let id := rules.nextId + 1
  ({ rules with nextId := id, redirects := rules.redirects ++ [(id, rule)] }, id)

/-- Translation entries of a removed rule are left to idle out. -/
def remove (id : Nat) : RuleSet × Bool :=
  let redirects := rules.redirects.filter fun rule => rule.1 ≠ id
  let blocks := rules.blocks.filter fun rule => rule.1 ≠ id
  ({ rules with redirects, blocks }, redirects.length + blocks.length ≠ rules.redirects.length + rules.blocks.length)

def bestRedirect (ip : Ipv4View) (packet : Meta) : Option RedirectRule :=
  ((rules.redirects.map Prod.snd).filter fun rule =>
      rule.fromHost.ip = ip.dst ∧ portAndProtoMatch rule.proto rule.fromHost.port packet).foldl
    (moreSpecific fun rule best => rule.fromHost.port.isSome ∧ best.fromHost.port.isNone) none

end

def blockBeats (rule best : BlockRule) : Bool :=
  best.cidr.prefixLen < rule.cidr.prefixLen ∨
    (best.cidr.prefixLen = rule.cidr.prefixLen ∧
      ((rule.port.isSome ∧ best.port.isNone) ∨
        (rule.port.isSome = best.port.isSome ∧ rule.proto.isSome ∧ best.proto.isNone)))

def bestBlock (rules : RuleSet) (ip : Ipv4View) (packet : Meta) : Option BlockRule :=
  ((rules.blocks.map Prod.snd).filter fun rule =>
      rule.cidr.contains ip.dst ∧ portAndProtoMatch rule.proto rule.port packet).foldl
    (moreSpecific blockBeats) none

def expireConns (conns : ConnTable) (now : Nat) : ConnTable := fun key =>
  (conns key).filter fun value => now - value.last < connIdle

end RuleSet

def withAddr (offset : Nat) (endpoint : Option (Ipv4Addr × Option UInt16)) (out : List UInt8) : List UInt8 :=
  match endpoint with
  | some (addr, _) => overwrite out offset (octets addr)
  | none => out

def withPort (ip : Ipv4View) (offset : Nat) (endpoint : Option (Ipv4Addr × Option UInt16))
    (out : List UInt8) : List UInt8 :=
  if (ip.proto = ipprotoTcp ∨ ip.proto = ipprotoUdp) ∧ ip.headerLen + 4 ≤ out.length then
    match endpoint.bind Prod.snd with
    | some port => overwrite out offset (u16Bytes port)
    | none => out
  else out

def withTransportChecksum (ip : Ipv4View) (out : List UInt8) : Option (List UInt8) :=
  let header := ip.headerLen
  let src := ipv4At out 12
  let dst := ipv4At out 16
  if ip.proto = ipprotoTcp ∧ header + 18 ≤ out.length then
    let out := overwrite out (header + 16) [0, 0]
    (l4Checksum src dst ipprotoTcp (out.drop header)).map fun csum =>
      overwrite out (header + 16) (u16Bytes csum)
  else if ip.proto = ipprotoUdp ∧ header + 8 ≤ out.length ∧ u16At out (header + 6) ≠ 0 then
    let out := overwrite out (header + 6) [0, 0]
    (l4Checksum src dst ipprotoUdp (out.drop header)).map fun csum =>
      overwrite out (header + 6) (u16Bytes (if csum = 0 then 0xFFFF else csum))
  else some out

def withHeaderChecksum (header : Nat) (out : List UInt8) : List UInt8 :=
  let out := overwrite out 10 [0, 0]
  overwrite out 10 (u16Bytes (internetChecksum (out.take header)))

def rewritePacket (ip : Ipv4View) (newSrc newDst : Option (Ipv4Addr × Option UInt16)) : Option (List UInt8) :=
  let out := withAddr 16 newDst (withAddr 12 newSrc (ip.buf.take ip.totalLen.toNat))
  let out := withPort ip (ip.headerLen + 2) newDst (withPort ip ip.headerLen newSrc out)
  (withTransportChecksum ip out).map (withHeaderChecksum ip.headerLen)

def blockReply (ip : Ipv4View) : Option (List UInt8) :=
  let packet := ip.buf.take ip.totalLen.toNat
  if ip.proto = ipprotoTcp then do
    let tcp ← TcpView.parse ip.payload
    if tcp.isRst then none
    else
      let advance := tcp.payload.length + tcp.isSyn.toNat + tcp.isFin.toNat
      let (seq, ack, flags) :=
        if tcp.isAck then (tcp.ack, 0, tcpRst)
        else (0, tcp.seq + BitVec.ofNat 32 advance, tcpRst ||| tcpAck)
      let segment ← tcpBuild ip.dst ip.src
        { srcPort := tcp.dstPort, dstPort := tcp.srcPort, seq, ack, flags, window := 0, options := [] } []
      ipv4Build ip.dst ip.src ipprotoTcp 64 segment 0
  else if ip.proto = ipprotoUdp then
    ipv4Build ip.dst ip.src ipprotoIcmp 64 (icmpUnreachableFor packet 3) 0
  else ipv4Build ip.dst ip.src ipprotoIcmp 64 (icmpUnreachableFor packet 1) 0

namespace RuleSet

def newPort (rule : RedirectRule) (packet : Meta) : Option UInt16 :=
  packet.dstPort.map fun orig => rule.toHost.port.getD orig

def replyKey (rule : RedirectRule) (ip : Ipv4View) (packet : Meta) : Option ConnKey :=
  packet.connPorts.map fun (sport, dport) =>
    let (revSport, revDport) :=
      -- Replies come from the rewritten port; an echo reply carries the identifier.
      if ip.proto = ipprotoTcp ∨ ip.proto = ipprotoUdp then ((newPort rule packet).getD dport, sport)
      else (0, max sport dport)
    { src := rule.toHost.ip, sport := revSport, dst := ip.src, dport := revDport, proto := ip.proto }

def eval (rules : RuleSet) (checked stamped : Nat) (packet : List UInt8) : RuleSet × Verdict :=
  match Ipv4View.parse packet with
  | none => (rules, .pass)
  | some ip =>
    let conns := expireConns rules.conns checked
    let data := Meta.of ip
    match rules.bestRedirect ip data with
    | some rule =>
      let conns := match replyKey rule ip data with
        | some key =>
          Function.update conns key
            (some { origIp := ip.dst, origPort := data.dstPort, last := stamped })
        | none => conns
      match rewritePacket ip none (some (rule.toHost.ip, newPort rule data)) with
      | some out => ({ rules with conns }, .rewrite out)
      | none => ({ rules with conns }, .pass)
    | none =>
      if (rules.bestBlock ip data).isSome then ({ rules with conns }, .drop (blockReply ip))
      else ({ rules with conns }, .pass)

/-- The key a packet from a redirect target is looked up under. -/
def returnKey (ip : Ipv4View) : Option ConnKey :=
  (Meta.of ip).connPorts.map fun (sport, dport) =>
    { src := ip.src, sport, dst := ip.dst, dport, proto := ip.proto }

def evalReturn (rules : RuleSet) (checked stamped : Nat) (packet : List UInt8) : RuleSet × Verdict :=
  match Ipv4View.parse packet with
  | none => (rules, .pass)
  | some ip =>
    match returnKey ip with
    | none => (rules, .pass)
    | some key =>
      match rules.conns key with
      | none => (rules, .pass)
      | some value =>
        if checked - value.last < connIdle then
          let conns := Function.update rules.conns key (some { value with last := stamped })
          match rewritePacket ip (some (value.origIp, value.origPort)) none with
          | some out => ({ rules with conns }, .rewrite out)
          | none => ({ rules with conns }, .pass)
        else (rules, .pass)

inductive Event where
  | guest (packet : List UInt8)
  | reply (packet : List UInt8)
  | addRedirect (rule : RedirectRule)
  | addBlock (rule : BlockRule)
  | remove (id : Nat)

structure Timed where
  checked : Nat
  stamped : Nat
  event : Event

def step (rules : RuleSet) (timed : Timed) : RuleSet :=
  match timed.event with
  | .guest packet => (rules.eval timed.checked timed.stamped packet).1
  | .reply packet => (rules.evalReturn timed.checked timed.stamped packet).1
  | .addRedirect rule => (rules.addRedirect rule).1
  | .addBlock rule => (rules.addBlock rule).1
  | .remove id => (rules.remove id).1

def run (rules : RuleSet) (events : List Timed) : RuleSet := events.foldl step rules

end RuleSet

/-! ## Replies find their way back, as long as no other redirected flow takes over the translation entry -/

open List

variable {bytes : List UInt8} {off : Nat} {ports : UInt16 × UInt16}

structure SameReads (kept : Nat → Nat → Prop) (before after : List UInt8) : Prop where
  length : after.length = before.length
  reads : ∀ start count, kept start count → window after start count = window before start count

theorem SameReads.refl (kept : Nat → Nat → Prop) (bytes : List UInt8) : SameReads kept bytes bytes :=
  ⟨rfl, fun _ _ _ => rfl⟩

theorem SameReads.trans {kept : Nat → Nat → Prop} {first second third : List UInt8}
    (left : SameReads kept first second) (right : SameReads kept second third) : SameReads kept first third :=
  ⟨right.length.trans left.length, fun start count known =>
    (right.reads start count known).trans (left.reads start count known)⟩

theorem sameReads_overwrite {kept : Nat → Nat → Prop} {patch : List UInt8} {start : Nat}
    (inside : start + patch.length ≤ bytes.length)
    (apart : ∀ first count, kept first count → first + count ≤ start ∨ start + patch.length ≤ first) :
    SameReads kept bytes (overwrite bytes start patch) :=
  ⟨length_overwrite inside, fun first count known =>
    window_overwrite_of_disjoint inside (apart first count known)⟩

@[simp] theorem length_u16Bytes (word : UInt16) : (u16Bytes word).length = 2 := by
  simp [u16Bytes]

def OutsideTransportChecksums (header start count : Nat) : Prop :=
  start + count ≤ header + 6 ∨ (header + 8 ≤ start ∧ start + count ≤ header + 16) ∨ header + 18 ≤ start

section

variable {ip : Ipv4View} {out : List UInt8}

theorem l4Checksum_eq_some {src dst : Ipv4Addr} {proto : UInt8} {segment : List UInt8}
    (fits : segment.length < 2 ^ 16) : ∃ csum, l4Checksum src dst proto segment = some csum := by
  rw [l4Checksum, if_pos (by omega)]
  exact ⟨_, rfl⟩

theorem withTransportChecksum_spec (fits : out.length < 2 ^ 16) :
    ∃ summed, withTransportChecksum ip out = some summed ∧
      SameReads (OutsideTransportChecksums ip.headerLen) out summed := by
  -- One field is cleared, summed over and written.
  have patched : ∀ field csum, (∀ start count, OutsideTransportChecksums ip.headerLen start count →
        start + count ≤ field ∨ field + 2 ≤ start) → field + 2 ≤ out.length →
      SameReads (OutsideTransportChecksums ip.headerLen) out
        (overwrite (overwrite out field [0, 0]) field (u16Bytes csum)) := by
    intro field csum apart inside
    have cleared : SameReads (OutsideTransportChecksums ip.headerLen) out (overwrite out field [0, 0]) :=
      sameReads_overwrite inside apart
    refine cleared.trans (sameReads_overwrite ?_ ?_)
    · rw [length_u16Bytes, cleared.length]
      exact inside
    intro start count known
    rw [length_u16Bytes]
    exact apart start count known
  have short : ∀ field, field + 2 ≤ out.length →
      ((overwrite out field [0, 0]).drop ip.headerLen).length < 2 ^ 16 := by
    intro field inside
    rw [length_drop, length_overwrite inside]
    omega
  rw [withTransportChecksum]
  dsimp only
  split
  · next tcp =>
    obtain ⟨csum, summed⟩ := l4Checksum_eq_some (short (ip.headerLen + 16) tcp.2)
    refine ⟨_, by rw [summed]; rfl, patched _ csum ?_ tcp.2⟩
    unfold OutsideTransportChecksums
    omega
  split
  · next udp =>
    obtain ⟨csum, summed⟩ := l4Checksum_eq_some (short (ip.headerLen + 6) udp.2.1)
    refine ⟨_, by rw [summed]; rfl, patched _ _ ?_ udp.2.1⟩
    unfold OutsideTransportChecksums
    omega
  · exact ⟨out, rfl, .refl _ _⟩

theorem withHeaderChecksum_spec {header : Nat} (long : 12 ≤ out.length) :
    SameReads (fun start count => start + count ≤ 10 ∨ 12 ≤ start) out (withHeaderChecksum header out) := by
  have cleared : SameReads (fun start count => start + count ≤ 10 ∨ 12 ≤ start) out
      (overwrite out 10 [0, 0]) := sameReads_overwrite long (fun _ _ known => known)
  refine cleared.trans (sameReads_overwrite ?_ ?_)
  · rw [length_u16Bytes, cleared.length]
    exact long
  intro start count known
  rw [length_u16Bytes]
  exact known

theorem u8At_congr {before after : List UInt8} (same : window after off 1 = window before off 1) :
    u8At after off = u8At before off := by
  have first : ∀ bytes : List UInt8, u8At bytes off = (window bytes off 1).headD 0 := by
    intro bytes
    rw [u8At, window, getD_eq_getElem?_getD, headD_eq_head?_getD, head?_take, head?_drop]
    rfl
  rw [first, first, same]

theorem u16At_congr {before after : List UInt8} (same : window after off 2 = window before off 2) :
    u16At after off = u16At before off := by
  rw [u16At, u16At, same]

theorem u16At_overwrite (word : UInt16) (inside : off + 2 ≤ bytes.length) :
    u16At (overwrite bytes off (u16Bytes word)) off = word := by
  have back : window (overwrite bytes off (u16Bytes word)) off (u16Bytes word).length = u16Bytes word :=
    window_overwrite_self (by simpa using inside)
  rw [length_u16Bytes] at back
  rw [u16At, back, u16Bytes, bigEndian_toBigEndian (by simpa using word.toNat_lt)]
  exact UInt16.ofNat_toNat

theorem ipv4At_overwrite (addr : Ipv4Addr)
    (inside : off + 4 ≤ bytes.length) : ipv4At (overwrite bytes off (octets addr)) off = addr := by
  have back : window (overwrite bytes off (octets addr)) off (octets addr).length = octets addr :=
    window_overwrite_self (by simpa using inside)
  rw [length_octets] at back
  rw [ipv4At, back, ipv4From_octets]

theorem withAddr_spec {offset : Nat} {addr : Ipv4Addr} {port : Option UInt16} (inside : offset + 4 ≤ out.length) :
    SameReads (fun start count => start + count ≤ offset ∨ offset + 4 ≤ start) out
        (withAddr offset (some (addr, port)) out) ∧
      ipv4At (withAddr offset (some (addr, port)) out) offset = addr := by
  refine ⟨sameReads_overwrite ?_ ?_, ipv4At_overwrite addr inside⟩
  · rw [length_octets]
    exact inside
  intro start count known
  rw [length_octets]
  exact known

theorem withPort_spec {offset : Nat} {endpoint : Option (Ipv4Addr × Option UInt16)}
    (inside : offset + 2 ≤ ip.headerLen + 4) :
    SameReads (fun start count => start + count ≤ offset ∨ offset + 2 ≤ start) out
        (withPort ip offset endpoint out) ∧
      ((ip.proto = ipprotoTcp ∨ ip.proto = ipprotoUdp) → ip.headerLen + 4 ≤ out.length →
        ∀ port, endpoint.bind Prod.snd = some port → u16At (withPort ip offset endpoint out) offset = port) := by
  rw [withPort]
  split
  · split
    · next port given =>
      refine ⟨sameReads_overwrite ?_ ?_, ?_⟩
      · rw [length_u16Bytes]
        omega
      · intro start count known
        rw [length_u16Bytes]
        exact known
      intro _ _ value same
      cases given.symm.trans same
      exact u16At_overwrite port (by omega)
    · next missing =>
      refine ⟨.refl _ _, ?_⟩
      intro _ _ value same
      cases missing.symm.trans same
  · next unported =>
    refine ⟨.refl _ _, ?_⟩
    intro proto long
    exact absurd ⟨proto, long⟩ unported

structure SourceRewritten (ip : Ipv4View) (addr : Ipv4Addr) (port : Option UInt16) (out : List UInt8) : Prop where
  length : out.length = ip.totalLen.toNat
  addr : ipv4At out 12 = addr
  header : ∀ start count, start + count ≤ 10 ∨ (16 ≤ start ∧ start + count ≤ 20) →
    window out start count = window ip.buf start count
  port : (ip.proto = ipprotoTcp ∨ ip.proto = ipprotoUdp) → ip.headerLen + 4 ≤ ip.totalLen.toNat →
    ∀ value, port = some value → u16At out ip.headerLen = value
  rest : ∀ start count, (ip.headerLen + 2 ≤ start ∧ start + count ≤ ip.headerLen + 6) ∨
      (ip.headerLen + 8 ≤ start ∧ start + count ≤ ip.headerLen + 16) →
    start + count ≤ ip.totalLen.toNat → window out start count = window ip.buf start count

theorem withAddr_none {offset : Nat} : withAddr offset none out = out := rfl

theorem withPort_none {offset : Nat} : withPort ip offset none out = out := by
  rw [withPort]
  split <;> rfl

theorem rewritePacket_source (ip : Ipv4View) (addr : Ipv4Addr) (port : Option UInt16) :
    ∃ out, rewritePacket ip (some (addr, port)) none = some out ∧ SourceRewritten ip addr port out := by
  have header := ip.headerLen_ge
  have ordered := ip.headerLen_le_totalLen
  have within := ip.totalLen_le
  have small := ip.totalLen.toNat_lt
  have clipped := ip.length_clipped
  simp only [rewritePacket, withPort_none, withAddr_none]
  obtain ⟨addressed, source⟩ := @withAddr_spec (ip.buf.take ip.totalLen.toNat) 12 addr port (by omega)
  generalize withAddr 12 (some (addr, port)) (ip.buf.take ip.totalLen.toNat) = first at *
  have firstLength := addressed.length
  obtain ⟨ported, sourcePort⟩ := @withPort_spec ip first ip.headerLen (some (addr, port)) (by omega)
  generalize withPort ip ip.headerLen (some (addr, port)) first = second at *
  have secondLength := ported.length
  obtain ⟨third, summed, transport⟩ := @withTransportChecksum_spec ip second (by omega)
  have thirdLength := transport.length
  have finished := @withHeaderChecksum_spec third ip.headerLen (by omega)
  generalize done : withHeaderChecksum ip.headerLen third = out at *
  have finalLength := finished.length
  refine ⟨out, by rw [summed, ← done]; rfl, ?_⟩
  refine ⟨by omega, ?_, ?_, ?_, ?_⟩
  · rw [ipv4At, finished.reads 12 4 (by omega), transport.reads 12 4 (.inl (by omega)), ported.reads 12 4 (by omega)]
    exact source
  · intro start count known
    rw [finished.reads start count (by omega), transport.reads start count (.inl (by omega)),
      ported.reads start count (by omega), addressed.reads start count (by omega),
      window_take (by omega)]
  · intro proto long value given
    rw [u16At, finished.reads _ 2 (by omega), transport.reads _ 2 (.inl (by omega))]
    exact sourcePort proto (by omega) value given
  · intro start count known inside
    rw [finished.reads start count (by omega), transport.reads start count (by
        unfold OutsideTransportChecksums
        omega),
      ported.reads start count (by omega), addressed.reads start count (by omega), window_take inside]

end

def destinationOf (ip : Ipv4View) : Ipv4Addr × Option UInt16 := (ip.dst, (Meta.of ip).dstPort)

/-- The source a packet claims, with its port where the protocol has one. -/
def sourceOf (ip : Ipv4View) : Ipv4Addr × Option UInt16 :=
  (ip.src, if ip.proto = ipprotoTcp ∨ ip.proto = ipprotoUdp then (Meta.of ip).connPorts.map Prod.fst else none)

section

variable {ip view : Ipv4View} {out : List UInt8}

theorem length_payload (ip : Ipv4View) : ip.payload.length = ip.totalLen.toNat - ip.headerLen := by
  have within := ip.totalLen_le
  rw [Ipv4View.payload, length_drop, length_take, Nat.min_eq_left within]

theorem window_payload {start count : Nat} (inside : ip.headerLen + start + count ≤ ip.totalLen.toNat) :
    window ip.payload start count = window ip.buf (ip.headerLen + start) count := by
  rw [Ipv4View.payload, window_drop, window_take inside]

theorem parse_of_start (length : out.length = ip.totalLen.toNat)
    (start : ∀ start count, start + count ≤ 10 → window out start count = window ip.buf start count) :
    ∃ view, Ipv4View.parse out = some view ∧ view.buf = out ∧ view.proto = ip.proto ∧
      view.headerLen = ip.headerLen ∧ view.totalLen = ip.totalLen := by
  have first : u8At out 0 = u8At ip.buf 0 := u8At_congr (start 0 1 (by omega))
  have total : u16At out 2 = u16At ip.buf 2 := u16At_congr (start 2 2 (by omega))
  have proto : u8At out 9 = u8At ip.buf 9 := u8At_congr (start 9 1 (by omega))
  have length : out.length = (u16At ip.buf 2).toNat := length
  obtain ⟨_, version, least, _, ordered, _⟩ := ip.wellFormed
  have wellFormed : ipv4WellFormed out := by
    refine ⟨?_, ?_, ?_, ?_, ?_, ?_⟩
    · rw [length]
      exact least.trans ordered
    · rw [first]
      exact version
    · rw [first]
      exact least
    · rw [first, length]
      exact ordered
    · rw [first, total]
      exact ordered
    · rw [total, length]
  exact ⟨_, dif_pos wellFormed, rfl, proto,
    congrArg (fun byte : UInt8 => (byte &&& 0x0F).toNat * 4) first, total⟩

theorem SourceRewritten.parse {addr : Ipv4Addr} {port : Option UInt16}
    (rewritten : SourceRewritten ip addr port out) :
    ∃ view, Ipv4View.parse out = some view ∧ view.buf = out ∧ view.src = addr ∧ view.dst = ip.dst ∧
      view.proto = ip.proto ∧ view.headerLen = ip.headerLen ∧ view.totalLen = ip.totalLen := by
  obtain ⟨view, parsed, rfl, layout⟩ :=
    parse_of_start rewritten.length fun start count early => rewritten.header start count (.inl early)
  refine ⟨view, parsed, rfl, rewritten.addr, ?_, layout⟩
  show ipv4From (window view.buf 16 4) = _
  rw [rewritten.header 16 4 (by omega)]
  rfl

theorem tcp_of_connPorts (tcp : ip.proto = ipprotoTcp) (tracked : (Meta.of ip).connPorts = some ports) :
    tcpWellFormed ip.payload ∧ (Meta.of ip).dstPort = some (u16At ip.payload 2) := by
  rw [Meta.of, if_pos tcp] at tracked ⊢
  simp only [TcpView.parse] at tracked ⊢
  split at tracked
  · next wellFormed =>
    rw [dif_pos wellFormed]
    exact ⟨wellFormed, rfl⟩
  · cases tracked

theorem udp_of_connPorts (udp : ip.proto = ipprotoUdp) (tracked : (Meta.of ip).connPorts = some ports) :
    udpWellFormed ip.payload ∧ (Meta.of ip).dstPort = some (u16At ip.payload 2) := by
  have notTcp : ip.proto ≠ ipprotoTcp := by
    rw [udp]
    decide
  rw [Meta.of, if_neg notTcp, if_pos udp] at tracked ⊢
  simp only [UdpView.parse] at tracked ⊢
  split at tracked
  · next wellFormed =>
    rw [dif_pos wellFormed]
    exact ⟨wellFormed, rfl⟩
  · cases tracked

theorem dstPort_of_portless (notTcp : ip.proto ≠ ipprotoTcp) (notUdp : ip.proto ≠ ipprotoUdp) :
    (Meta.of ip).dstPort = none := by
  rw [Meta.of, if_neg notTcp, if_neg notUdp]
  split <;> rfl

theorem SourceRewritten.sourceOf {addr : Ipv4Addr} {port : Option UInt16}
    (rewritten : SourceRewritten ip addr port out) (tracked : (Meta.of ip).connPorts = some ports)
    (ported : port.isSome ↔ ip.proto = ipprotoTcp ∨ ip.proto = ipprotoUdp) :
    ∃ view, Ipv4View.parse out = some view ∧ sourceOf view = (addr, port) := by
  obtain ⟨view, parsed, buf, src, _, proto, header, total⟩ := rewritten.parse
  refine ⟨view, parsed, ?_⟩
  have ordered := ip.headerLen_le_totalLen
  have length : view.payload.length = ip.payload.length := by
    rw [length_payload, length_payload, header, total]
  have size := length_payload ip
  have reads : ∀ start count, ip.headerLen + start + count ≤ ip.totalLen.toNat →
      window out (ip.headerLen + start) count = window ip.buf (ip.headerLen + start) count →
      window view.payload start count = window ip.payload start count := by
    intro start count inside same
    rw [window_payload (by rw [header, total]; exact inside), window_payload inside, buf, header, same]
  have written : ∀ value, port = some value → (ip.proto = ipprotoTcp ∨ ip.proto = ipprotoUdp) →
      4 ≤ ip.payload.length → u16At view.payload 0 = value := by
    intro value given proto long
    rw [u16At, window_payload (by rw [header, total]; omega), buf, header, Nat.add_zero]
    exact rewritten.port proto (by omega) value given
  rw [Net.sourceOf, proto, src]
  by_cases tcp : ip.proto = ipprotoTcp
  · obtain ⟨⟨long, least, offset⟩, _⟩ := tcp_of_connPorts tcp tracked
    simp only [tcpMinHeaderLen] at long
    obtain ⟨value, given⟩ := Option.isSome_iff_exists.mp (ported.mpr (.inl tcp))
    have byte : u8At view.payload 12 = u8At ip.payload 12 :=
      u8At_congr (reads 12 1 (by omega) (rewritten.rest _ 1 (by omega) (by omega)))
    have wellFormed : tcpWellFormed view.payload := by
      refine ⟨?_, ?_, ?_⟩
      · rw [length]
        exact long
      · rw [byte]
        exact least
      · rw [byte, length]
        exact offset
    rw [if_pos (.inl tcp), Meta.of, if_pos (proto.trans tcp), TcpView.parse, dif_pos wellFormed, given]
    exact congrArg (fun port => (addr, some port)) (written value given (.inl tcp) (by omega))
  by_cases udp : ip.proto = ipprotoUdp
  · obtain ⟨⟨long, least, offset⟩, _⟩ := udp_of_connPorts udp tracked
    simp only [udpHeaderLen] at long
    obtain ⟨value, given⟩ := Option.isSome_iff_exists.mp (ported.mpr (.inr udp))
    have word : u16At view.payload 4 = u16At ip.payload 4 :=
      u16At_congr (reads 4 2 (by omega) (rewritten.rest _ 2 (by omega) (by omega)))
    have wellFormed : udpWellFormed view.payload := by
      refine ⟨?_, ?_, ?_⟩
      · rw [length]
        exact long
      · rw [word]
        exact least
      · rw [word, length]
        exact offset
    rw [if_pos (.inr udp), Meta.of, if_neg (by rw [proto]; exact tcp), if_pos (proto.trans udp),
      UdpView.parse, dif_pos wellFormed, given]
    exact congrArg (fun port => (addr, some port)) (written value given (.inr udp) (by omega))
  rw [if_neg (by rintro (isTcp | isUdp); exacts [tcp isTcp, udp isUdp])]
  cases port with
  | none => rfl
  | some value => exact absurd (ported.mp rfl) (by rintro (isTcp | isUdp); exacts [tcp isTcp, udp isUdp])

end

namespace RuleSet

/-- The entry a guest packet records when it is redirected: its key, and the
destination a reply is rewritten back to. -/
def tracked (rules : RuleSet) (packet : List UInt8) : Option (ConnKey × Ipv4Addr × Option UInt16) := do
  let ip ← Ipv4View.parse packet
  let rule ← rules.bestRedirect ip (Meta.of ip)
  let key ← replyKey rule ip (Meta.of ip)
  some (key, destinationOf ip)

/-- The entry under `key` is there and has not idled out. -/
def Live (rules : RuleSet) (key : ConnKey) (now : Nat) : Bool :=
  (rules.conns key).any fun value => now - value.last < connIdle

def TakesOver (rules : RuleSet) (now : Nat) (packet : List UInt8) : Prop :=
  ∃ key dest value, rules.tracked packet = some (key, dest) ∧ rules.conns key = some value ∧
    now - value.last < connIdle ∧ (value.origIp, value.origPort) ≠ dest

/-- Along the run the entry is never idle for too long. -/
def Unevicted (key : ConnKey) : RuleSet → List Timed → Prop
  | _, [] => True
  | rules, timed :: rest => rules.Live key timed.checked ∧ Unevicted key (rules.step timed) rest

/-- Along the run no guest packet takes an entry over. -/
def NoTakeover : RuleSet → List Timed → Prop
  | _, [] => True
  | rules, timed :: rest =>
    (∀ packet, timed.event = .guest packet → ¬rules.TakesOver timed.checked packet) ∧
      NoTakeover (rules.step timed) rest

section

variable {rules : RuleSet} {key : ConnKey} {dest : Ipv4Addr × Option UInt16} {packet : List UInt8}

def Undoes (rules : RuleSet) (key : ConnKey) (dest : Ipv4Addr × Option UInt16) : Prop :=
  ∃ value, rules.conns key = some value ∧ (value.origIp, value.origPort) = dest

theorem Live.exists {now : Nat} (live : rules.Live key now) :
    ∃ value, rules.conns key = some value ∧ now - value.last < connIdle := by
  obtain ⟨value, found, recent⟩ := (Option.any_eq_true ..).mp live
  exact ⟨value, found, of_decide_eq_true recent⟩

theorem expireConns_of_live {value : RevVal} {now : Nat} (found : rules.conns key = some value)
    (live : now - value.last < connIdle) : expireConns rules.conns now key = some value := by
  rw [expireConns, found, Option.filter_some, if_pos (decide_eq_true live)]

theorem eval_conns (rules : RuleSet) (checked stamped : Nat) (packet : List UInt8) : (rules.tracked packet = none ∧
      ((rules.eval checked stamped packet).1.conns = rules.conns ∨
        (rules.eval checked stamped packet).1.conns = expireConns rules.conns checked)) ∨
    ∃ key dest, rules.tracked packet = some (key, dest) ∧
      (rules.eval checked stamped packet).1.conns =
        Function.update (expireConns rules.conns checked) key
          (some { origIp := dest.1, origPort := dest.2, last := stamped }) := by
  rw [eval, tracked]
  cases parsed : Ipv4View.parse packet with
  | none => exact .inl ⟨rfl, .inl rfl⟩
  | some ip =>
    simp only [Option.bind_eq_bind, Option.bind_some]
    cases best : rules.bestRedirect ip (Meta.of ip) with
    | none =>
      refine .inl ⟨rfl, .inr ?_⟩
      dsimp only
      split <;> rfl
    | some rule =>
      cases tracking : replyKey rule ip (Meta.of ip) with
      | none =>
        refine .inl ⟨by simp [tracking], .inr ?_⟩
        simp only [tracking]
        split <;> rfl
      | some key =>
        refine .inr ⟨key, destinationOf ip, by simp [tracking], ?_⟩
        simp only [tracking]
        split <;> rfl

theorem eval_undoes (checked stamped : Nat) (sent : rules.tracked packet = some (key, dest)) :
    Undoes (rules.eval checked stamped packet).1 key dest := by
  rcases eval_conns rules checked stamped packet with ⟨untracked, _⟩ | ⟨key', dest', sent', table⟩
  · rw [untracked] at sent
    cases sent
  · cases sent.symm.trans sent'
    exact ⟨_, by rw [table, Function.update_self], rfl⟩

section

variable (undoes : Undoes rules key dest)
include undoes

theorem Undoes.eval {checked : Nat} (live : rules.Live key checked)
    (apart : ¬rules.TakesOver checked packet) (stamped : Nat) :
    Undoes (rules.eval checked stamped packet).1 key dest := by
  obtain ⟨value, found, same⟩ := undoes
  obtain ⟨value', found', recent⟩ := Live.exists live
  cases found.symm.trans found'
  have kept := expireConns_of_live found recent
  rcases eval_conns rules checked stamped packet with ⟨_, table | table⟩ | ⟨key', dest', sent, table⟩
  · exact ⟨value, by rw [table, found], same⟩
  · exact ⟨value, by rw [table, kept], same⟩
  by_cases here : key = key'
  · subst here
    -- The entry is written again, for the same destination.
    have agree : (value.origIp, value.origPort) = dest' := by
      by_contra differ
      exact apart ⟨key, dest', value, sent, found, recent, differ⟩
    exact ⟨_, by rw [table, Function.update_self], agree.symm.trans same⟩
  · exact ⟨value, by rw [table, Function.update_of_ne here, kept], same⟩

theorem Undoes.evalReturn (checked stamped : Nat) : Undoes (rules.evalReturn checked stamped packet).1 key dest := by
  obtain ⟨value, found, same⟩ := undoes
  rw [RuleSet.evalReturn]
  split
  · exact ⟨value, found, same⟩
  split
  · exact ⟨value, found, same⟩
  rename_i other _
  split
  · exact ⟨value, found, same⟩
  rename_i entry entryFound
  have touched : Undoes
      { rules with conns := Function.update rules.conns other (some { entry with last := stamped }) }
      key dest := by
    by_cases here : key = other
    · subst here
      cases found.symm.trans entryFound
      exact ⟨_, Function.update_self .., same⟩
    · exact ⟨value, (Function.update_of_ne here ..).trans found, same⟩
  split
  · split
    · exact touched
    · exact touched
  · exact ⟨value, found, same⟩

theorem Undoes.step {timed : Timed} (live : rules.Live key timed.checked)
    (apart : ∀ packet, timed.event = .guest packet → ¬rules.TakesOver timed.checked packet) :
    Undoes (rules.step timed) key dest := by
  obtain ⟨checked, stamped, event⟩ := timed
  cases event with
  | guest packet => exact undoes.eval live (apart packet rfl) stamped
  | reply packet => exact undoes.evalReturn checked stamped
  | addRedirect rule | addBlock rule | remove id => exact undoes

theorem Undoes.run {events : List Timed} (unevicted : Unevicted key rules events) (apart : NoTakeover rules events) :
    Undoes (rules.run events) key dest := by
  induction events generalizing rules with
  | nil => exact undoes
  | cons timed rest ih => exact ih (undoes.step unevicted.1 apart.1) unevicted.2 apart.2

theorem evalReturn_of_undoes {checked stamped : Nat} {reply : Ipv4View} {answer : List UInt8} (live : rules.Live key checked)
    (parsed : Ipv4View.parse answer = some reply) (answers : returnKey reply = some key)
    (ported : dest.2.isSome ↔ reply.proto = ipprotoTcp ∨ reply.proto = ipprotoUdp) :
    ∃ out view, (rules.evalReturn checked stamped answer).2 = .rewrite out ∧
      Ipv4View.parse out = some view ∧ sourceOf view = dest := by
  obtain ⟨value, found, rfl⟩ := undoes
  obtain ⟨value', found', recent⟩ := Live.exists live
  cases found.symm.trans found'
  obtain ⟨out, rewritten, changed⟩ := rewritePacket_source reply value.origIp value.origPort
  obtain ⟨ports, tracked, _⟩ := Option.map_eq_some_iff.mp answers
  obtain ⟨view, parsedOut, source⟩ := changed.sourceOf tracked ported
  refine ⟨out, view, ?_, parsedOut, source⟩
  simp only [RuleSet.evalReturn, parsed, answers, found, if_pos recent, rewritten]

end

theorem tracked_spec (sent : rules.tracked packet = some (key, dest)) :
    ∃ ip, Ipv4View.parse packet = some ip ∧ dest = destinationOf ip ∧ key.proto = ip.proto ∧
      (dest.2.isSome ↔ key.proto = ipprotoTcp ∨ key.proto = ipprotoUdp) := by
  simp only [tracked, Option.bind_eq_bind, Option.bind_eq_some_iff] at sent
  obtain ⟨ip, parsed, rule, _, key', tracking, shape⟩ := sent
  cases shape
  obtain ⟨ports, connected, rfl⟩ := Option.map_eq_some_iff.mp tracking
  refine ⟨ip, parsed, rfl, rfl, ?_⟩
  show (Meta.of ip).dstPort.isSome ↔ ip.proto = ipprotoTcp ∨ ip.proto = ipprotoUdp
  by_cases tcp : ip.proto = ipprotoTcp
  · rw [(tcp_of_connPorts tcp connected).2]
    exact ⟨fun _ => .inl tcp, fun _ => rfl⟩
  by_cases udp : ip.proto = ipprotoUdp
  · rw [(udp_of_connPorts udp connected).2]
    exact ⟨fun _ => .inr udp, fun _ => rfl⟩
  rw [dstPort_of_portless tcp udp]
  refine ⟨fun some => (Bool.false_ne_true some).elim, ?_⟩
  rintro (isTcp | isUdp)
  exacts [absurd isTcp tcp, absurd isUdp udp]

end

/-- A guest packet was redirected under `key`. Whatever happens to the rule set
afterwards, as long as the entry does not idle out and no redirected packet
takes over a live entry of another destination, a reply under that key leaves
with the source the packet was addressed to. -/
theorem evalReturn_restores_destination {rules : RuleSet} {key : ConnKey}
    {dest : Ipv4Addr × Option UInt16} {packet answer : List UInt8} {reply : Ipv4View}
    {checked stamped : Nat} {between : List Timed} {answerChecked answerStamped : Nat}
    (sent : rules.tracked packet = some (key, dest))
    (unevicted : Unevicted key (rules.eval checked stamped packet).1 between)
    (apart : NoTakeover (rules.eval checked stamped packet).1 between)
    (live : ((rules.eval checked stamped packet).1.run between).Live key answerChecked)
    (parsed : Ipv4View.parse answer = some reply) (answers : returnKey reply = some key) :
    ∃ ip out view, Ipv4View.parse packet = some ip ∧
      (((rules.eval checked stamped packet).1.run between).evalReturn answerChecked answerStamped answer).2 =
        .rewrite out ∧
      Ipv4View.parse out = some view ∧ sourceOf view = destinationOf ip := by
  have undoes := (eval_undoes checked stamped sent).run unevicted apart
  obtain ⟨ip, parsedPacket, rfl, proto, ported⟩ := tracked_spec sent
  have sameProto : reply.proto = key.proto := by
    obtain ⟨ports, _, rfl⟩ := Option.map_eq_some_iff.mp answers
    rfl
  rw [← sameProto] at ported
  obtain ⟨out, view, rewritten, parsedOut, source⟩ := evalReturn_of_undoes undoes live parsed answers ported
  exact ⟨ip, out, view, parsedPacket, rewritten, parsedOut, source⟩

def datagram (src dst : Ipv4Addr) (sport dport : UInt16) : List UInt8 :=
  (ipv4Build src dst ipprotoUdp 64 (u16Bytes sport ++ u16Bytes dport ++ [0, 8, 0, 0]) 1).getD []

def standIn : RuleSet :=
  ((RuleSet.new.addRedirect
      { fromHost := ⟨0xC0000201, none⟩, toHost := ⟨0x0AD50063, none⟩, proto := none }).1.addRedirect
    { fromHost := ⟨0xC0000202, none⟩, toHost := ⟨0x0AD50063, none⟩, proto := none }).1

def question (server : Ipv4Addr) : List UInt8 := datagram 0x0AD5000A server 4000 53

def answer : List UInt8 := datagram 0x0AD50063 0x0AD5000A 53 4000

def flowKey : ConnKey := { src := 0x0AD50063, sport := 53, dst := 0x0AD5000A, dport := 4000, proto := ipprotoUdp }

def answeredFrom (rules : RuleSet) (now : Nat) : Option (Ipv4Addr × Option UInt16) :=
  match (rules.evalReturn now now answer).2 with
  | .rewrite out => (Ipv4View.parse out).map sourceOf
  | _ => none

/-- One flow: the second of two answers is still rewritten back. -/
theorem evalReturn_restores_single_flow : ∃ ip out view, Ipv4View.parse (question 0xC0000201) = some ip ∧
      (((standIn.eval 0 0 (question 0xC0000201)).1.run [⟨1, 1, .reply answer⟩]).evalReturn 2 2 answer).2 =
        .rewrite out ∧
      Ipv4View.parse out = some view ∧ sourceOf view = destinationOf ip := by
  have sent : standIn.tracked (question 0xC0000201) = some (flowKey, 0xC0000201, some 53) := by decide
  have answers : returnKey ⟨answer, by decide⟩ = some flowKey := by decide
  exact evalReturn_restores_destination sent ⟨by decide, trivial⟩
    ⟨fun packet isGuest => (nomatch isGuest), trivial⟩ (by decide +kernel) (by decide) answers

/-- Two flows of one guest port go to the stand-in. The second question takes
the entry over, and the answer to the first comes from the wrong server. -/
theorem evalReturn_confuses_destinations :
    ¬∀ (rules : RuleSet) (key : ConnKey) (dest : Ipv4Addr × Option UInt16) (packet answer : List UInt8)
      (reply : Ipv4View) (checked stamped : Nat) (between : List Timed) (answerChecked answerStamped : Nat),
      rules.tracked packet = some (key, dest) →
      Unevicted key (rules.eval checked stamped packet).1 between →
      ((rules.eval checked stamped packet).1.run between).Live key answerChecked →
      Ipv4View.parse answer = some reply → returnKey reply = some key →
      ∃ ip out view, Ipv4View.parse packet = some ip ∧
        (((rules.eval checked stamped packet).1.run between).evalReturn answerChecked answerStamped
          answer).2 = .rewrite out ∧
        Ipv4View.parse out = some view ∧ sourceOf view = destinationOf ip := by
  intro claim
  have answers : returnKey ⟨answer, by decide⟩ = some flowKey := by decide
  obtain ⟨ip, out, view, parsed, rewritten, parsedOut, source⟩ :=
    claim standIn flowKey (0xC0000201, some 53) (question 0xC0000201) answer ⟨answer, by decide⟩ 0 0
      [⟨1, 1, .guest (question 0xC0000202)⟩] 2 2 (by decide) ⟨by decide, trivial⟩
      (by decide +kernel) (by decide) answers
  have asked : (Ipv4View.parse (question 0xC0000201)).map destinationOf = some (0xC0000201, some 53) := by
    decide
  have answered : answeredFrom ((standIn.eval 0 0 (question 0xC0000201)).1.run
      [⟨1, 1, .guest (question 0xC0000202)⟩]) 2 = some (0xC0000202, some 53) := by
    decide +kernel
  rw [parsed] at asked
  rw [answeredFrom, rewritten] at answered
  simp only [parsedOut, Option.map_some, source] at answered
  cases asked.symm.trans answered

end RuleSet

end Vmlab.Net
