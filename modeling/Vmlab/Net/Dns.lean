import Vmlab.Library.SortedMap
import Vmlab.Net.Frame

/-!
# The DNS server of a segment gateway

The name database with its runtime rules, and one frame in, one action out
(`src/net/dns.rs`). A name is the UTF-8 text the source keeps it as; the tests
of the source on names only look at its bytes.
-/

namespace Vmlab.Net

open Library List
open Function (update)

def dnsPort : UInt16 := 53

def qtypeA : UInt16 := 1
def qtypeAaaa : UInt16 := 28
def qtypeAny : UInt16 := 255
def qclassIn : UInt16 := 1

def rcodeNoerror : UInt8 := 0
def rcodeNxdomain : UInt8 := 3
def rcodeNotimp : UInt8 := 4

def answerTtl : BitVec 32 := 60

inductive SinkholeMode where
  | nxdomain
  | zero
  deriving DecidableEq

inductive DnsAnswer where
  | a (ip : Ipv4Addr)
  | nxdomain
  | zero
  | forward
  deriving DecidableEq

inductive RecordKind where
  | dynamic
  | static

abbrev DnsName := List UInt8

structure RecordEntry where
  ip : Ipv4Addr
  kind : RecordKind

structure WildcardRecord where
  id : Nat
  pattern : DnsName
  ip : Ipv4Addr

structure SinkholeEntry where
  id : Nat
  pattern : DnsName
  mode : SinkholeMode

def dot : UInt8 := 46

def wildLabel : List UInt8 := [42, dot]

def toAsciiLowercase (byte : UInt8) : UInt8 := if 65 ≤ byte ∧ byte ≤ 90 then byte + 32 else byte

/-- Lowercase, no trailing dot. -/
def normalize (name : DnsName) : DnsName := (name.rdropWhile (· = dot)).map toAsciiLowercase

/-- A leading wildcard label stands for one or more labels. -/
def patternMatches (pattern name : DnsName) : Bool :=
  if wildLabel.isPrefixOf pattern then
    let rest := pattern.drop wildLabel.length
    rest.length + 1 < name.length && rest.isSuffixOf name && name[name.length - rest.length - 1]? == some dot
  else pattern == name

def specificity (pattern : DnsName) : Nat ×ₗ Bool := toLex (pattern.count dot + 1, !wildLabel.isPrefixOf pattern)

def better {Entry : Type} (pattern : Entry → DnsName) (name : DnsName) (best : Option Entry) (entry : Entry) :
    Option Entry :=
  if patternMatches (pattern entry) name then
    match best with
    | none => some entry
    | some other => if specificity (pattern other) < specificity (pattern entry) then some entry else best
  else best

def mostSpecific {Entry : Type} (pattern : Entry → DnsName) (name : DnsName) (entries : List Entry) : Option Entry :=
  entries.foldl (better pattern name) none

structure DnsZone (SocketAddr : Type) where
  suffix : DnsName
  upstream : Option SocketAddr
  records : DnsName → Option RecordEntry
  wildcards : List WildcardRecord
  sinkholes : List SinkholeEntry
  ruleNames : SortedMap Nat DnsName
  nextId : Nat

namespace DnsZone

variable {SocketAddr : Type}

def new (suffix : DnsName) : DnsZone SocketAddr where
  suffix := normalize suffix
  upstream := none
  records _ := none
  wildcards := []
  sinkholes := []
  ruleNames := .empty
  nextId := 0

section

variable (zone : DnsZone SocketAddr)

def withUpstream (upstream : Option SocketAddr) : DnsZone SocketAddr := { zone with upstream }

def allocId : Nat := (zone.nextId + 1) % 2 ^ 64

def fqdn (name : DnsName) : DnsName :=
  let n := normalize name
  if n = zone.suffix ∨ (dot :: zone.suffix) <:+ n then n else n ++ dot :: zone.suffix

def register (name : DnsName) (ip : Ipv4Addr) : DnsZone SocketAddr :=
  { zone with records := update zone.records (zone.fqdn name) (some ⟨ip, .dynamic⟩) }

def unregister (name : DnsName) : Bool × DnsZone SocketAddr :=
  ((zone.records (zone.fqdn name)).isSome, { zone with records := update zone.records (zone.fqdn name) none })

def setStatic (pattern : DnsName) (ip : Ipv4Addr) : Nat × DnsZone SocketAddr :=
  let id := zone.allocId
  let p := normalize pattern
  if wildLabel.isPrefixOf p then
    (id, { zone with nextId := id, wildcards := zone.wildcards ++ [⟨id, p, ip⟩] })
  else
    (id,
      { zone with
        nextId := id
        records := update zone.records p (some ⟨ip, .static⟩)
        ruleNames := zone.ruleNames.insert id p })

def addSinkhole (pattern : DnsName) (mode : SinkholeMode) : Nat × DnsZone SocketAddr :=
  let id := zone.allocId
  (id, { zone with nextId := id, sinkholes := zone.sinkholes ++ [⟨id, normalize pattern, mode⟩] })

def removeRule (id : Nat) : Bool × DnsZone SocketAddr :=
  match zone.ruleNames.get? id with
  | some name =>
    ((zone.records name).isSome,
      { zone with
        ruleNames := zone.ruleNames.erase id
        records := update zone.records name none })
  | none =>
    let wildcards := zone.wildcards.filter fun w => w.id ≠ id
    let sinkholes := zone.sinkholes.filter fun s => s.id ≠ id
    (zone.wildcards.length + zone.sinkholes.length ≠ wildcards.length + sinkholes.length,
      { zone with wildcards, sinkholes })

/-- Sinkholes first, then exact records, then wildcards, then the upstream. -/
def lookup (qname : DnsName) : DnsAnswer :=
  let name := normalize qname
  match mostSpecific SinkholeEntry.pattern name zone.sinkholes with
  | some s =>
    match s.mode with
    | .nxdomain => .nxdomain
    | .zero => .zero
  | none =>
    match zone.records name with
    | some entry => .a entry.ip
    | none =>
      match mostSpecific WildcardRecord.pattern name zone.wildcards with
      | some w => .a w.ip
      | none => if zone.upstream.isSome then .forward else .nxdomain

end

inductive Event where
  | register (name : DnsName) (ip : Ipv4Addr)
  | unregister (name : DnsName)
  | setStatic (pattern : DnsName) (ip : Ipv4Addr)
  | addSinkhole (pattern : DnsName) (mode : SinkholeMode)
  | removeRule (id : Nat)

def step (zone : DnsZone SocketAddr) : Event → DnsZone SocketAddr
  | .register name ip => zone.register name ip
  | .unregister name => (zone.unregister name).2
  | .setStatic pattern ip => (zone.setStatic pattern ip).2
  | .addSinkhole pattern mode => (zone.addSinkhole pattern mode).2
  | .removeRule id => (zone.removeRule id).2

end DnsZone

structure DnsRespondCtx where
  clientMac : MacAddr
  serverMac : MacAddr
  clientIp : Ipv4Addr
  serverIp : Ipv4Addr
  clientPort : UInt16

def DnsRespondCtx.buildFrame (respond : DnsRespondCtx) (payload : List UInt8) : Option (List UInt8) := do
  let udp ← udpBuild respond.serverIp respond.clientIp dnsPort respond.clientPort payload
  let ip ← ipv4Build respond.serverIp respond.clientIp ipprotoUdp 64 udp 0
  some (ethBuild respond.clientMac respond.serverMac ethertypeIpv4 ip)

inductive DnsAction (SocketAddr : Type) where
  | reply (frame : List UInt8)
  | forwardUpstream (upstream : SocketAddr) (queryId : UInt16) (rawQuery : List UInt8) (respond : DnsRespondCtx)
  | ignore

def charFrom (byte : UInt8) : List UInt8 :=
  if byte < 0x80 then [byte] else [(0xC0 : UInt8) ||| (byte >>> 6), (0x80 : UInt8) ||| (byte &&& 0x3F)]

def pushLabel (name : DnsName) (label : List UInt8) : DnsName :=
  (if name = [] then name else name ++ [dot]) ++ label.flatMap fun byte => charFrom (toAsciiLowercase byte)

def parseLabels (msg : List UInt8) : Nat → DnsName → Nat → Option (DnsName × Nat)
  | 0, _, _ => none
  | fuel + 1, name, off =>
    match msg[off]? with
    | none => none
    | some len =>
      if len = 0 then some (name, off + 1)
      else if 63 < len then none
      else if msg.length < off + 1 + len.toNat then none
      else
        let name := pushLabel name (window msg (off + 1) len.toNat)
        if 255 < name.length then none else parseLabels msg fuel name (off + 1 + len.toNat)

def parseQname (msg : List UInt8) (off : Nat) : Option (DnsName × Nat) := parseLabels msg (msg.length + 1) [] off

def buildResponse (query : List UInt8) (questionEnd : Nat) (rcode : UInt8) (answer : Option Ipv4Addr) : List UInt8 :=
  query.take 2 ++
    [0x80 ||| (u8At query 2 &&& 0x78) ||| 0x04 ||| (u8At query 2 &&& 0x01), 0x80 ||| (rcode &&& 0x0F)] ++
    u16Bytes 1 ++ u16Bytes (if answer.isSome then 1 else 0) ++ u16Bytes 0 ++ u16Bytes 0 ++
    (query.take questionEnd).drop 12 ++
    match answer with
    | none => []
    | some ip => [0xC0, 0x0C] ++ u16Bytes qtypeA ++ u16Bytes qclassIn ++ u32Bytes answerTtl ++ u16Bytes 4 ++ octets ip

structure DnsQuestion where
  qname : DnsName
  qtype : UInt16
  qclass : UInt16
  questionEnd : Nat

namespace DnsServer

variable {SocketAddr : Type}

def received (ethFrame : List UInt8) : Option (DnsRespondCtx × List UInt8) := do
  let eth ← EthView.parse ethFrame
  guard (eth.ethertype = ethertypeIpv4)
  let ip ← Ipv4View.parse eth.payload
  guard (ip.proto = ipprotoUdp)
  let udp ← UdpView.parse ip.payload
  guard (udp.dstPort = dnsPort)
  let clientMac ← macAt? ethFrame 6
  let serverMac ← macAt? ethFrame 0
  some (⟨clientMac, serverMac, ip.src, ip.dst, udp.srcPort⟩, udp.payload)

def questionOf (msg : List UInt8) : Option DnsQuestion := do
  guard (12 ≤ msg.length ∧ u8At msg 2 &&& 0x80 = 0)
  guard (u16At msg 4 = 1)
  let (qname, off) ← parseQname msg 12
  guard (off + 4 ≤ msg.length)
  some ⟨qname, u16At msg off, u16At msg (off + 2), off + 4⟩

def opcode (msg : List UInt8) : UInt8 := (u8At msg 2 >>> 3) &&& 0x0F

def forwardAction (upstream : SocketAddr) (msg : List UInt8) (respond : DnsRespondCtx) : DnsAction SocketAddr :=
  .forwardUpstream upstream (u16At msg 0) msg respond

def reply (respond : DnsRespondCtx) (payload : List UInt8) : DnsAction SocketAddr :=
  match respond.buildFrame payload with
  | some frame => .reply frame
  | none => .ignore

def forwardOr (upstream : Option SocketAddr) (msg : List UInt8) (respond : DnsRespondCtx) (questionEnd : Nat)
    (rcode : UInt8) : DnsAction SocketAddr :=
  match upstream with
  | some u => forwardAction u msg respond
  | none => reply respond (buildResponse msg questionEnd rcode none)

def respondTo (zone : DnsZone SocketAddr) (respond : DnsRespondCtx) (msg : List UInt8) (question : DnsQuestion) :
    DnsAction SocketAddr :=
  let answer := zone.lookup question.qname
  let response (rcode : UInt8) (ip : Option Ipv4Addr) := reply respond (buildResponse msg question.questionEnd rcode ip)
  if opcode msg ≠ 0 ∨ question.qclass ≠ qclassIn then
    forwardOr zone.upstream msg respond question.questionEnd rcodeNotimp
  else if question.qtype = qtypeA ∨ question.qtype = qtypeAny then
    match answer with
    | .a ip => response rcodeNoerror (some ip)
    | .zero => response rcodeNoerror (some 0)
    | .nxdomain => response rcodeNxdomain none
    | .forward => forwardOr zone.upstream msg respond question.questionEnd rcodeNxdomain
  else if question.qtype = qtypeAaaa then
    match answer with
    | .a _ | .zero => response rcodeNoerror none
    | .nxdomain => response rcodeNxdomain none
    | .forward => forwardOr zone.upstream msg respond question.questionEnd rcodeNxdomain
  else forwardOr zone.upstream msg respond question.questionEnd rcodeNotimp

def handle (zone : DnsZone SocketAddr) (ethFrame : List UInt8) : DnsAction SocketAddr :=
  match received ethFrame with
  | none => .ignore
  | some (respond, msg) =>
    match questionOf msg with
    | none => .ignore
    | some question => respondTo zone respond msg question

end DnsServer

/-! ### Sinkholed queries stay local -/

def encodeLabels (labels : List (List UInt8)) : List UInt8 :=
  labels.flatMap fun label => UInt8.ofNat label.length :: label

def textOf (labels : List (List UInt8)) : DnsName := labels.foldl pushLabel []

/-- A query with one question: a name within the limits of the protocol, and
whatever may follow the question. -/
structure DnsQuery where
  header : List UInt8
  labels : List (List UInt8)
  qtype : UInt16
  qclass : UInt16
  trailer : List UInt8
  headed : header.length = 12
  query : u8At header 2 &&& 0x80 = 0
  single : u16At header 4 = 1
  labelled : ∀ label ∈ labels, 1 ≤ label.length ∧ label.length ≤ 63
  named : (encodeLabels labels).length + 1 ≤ 255

namespace DnsQuery

variable (query : DnsQuery)

def message : List UInt8 :=
  query.header ++ (encodeLabels query.labels ++ 0 :: (u16Bytes query.qtype ++ u16Bytes query.qclass ++ query.trailer))

def qname : DnsName := textOf query.labels

def Served : Prop :=
  DnsServer.opcode query.header = 0 ∧ query.qclass = qclassIn ∧
    (query.qtype = qtypeA ∨ query.qtype = qtypeAaaa ∨ query.qtype = qtypeAny)

end DnsQuery

theorem length_pushLabel (name : DnsName) (label : List UInt8) : name.length ≤ (pushLabel name label).length := by
  unfold pushLabel
  split <;> simp

section

variable (labels : List (List UInt8))
include labels

theorem length_foldl_pushLabel (name : DnsName) : name.length ≤ (labels.foldl pushLabel name).length := by
  induction labels generalizing name with
  | nil => exact le_rfl
  | cons label labels ih => exact (length_pushLabel name label).trans (ih _)

theorem parseLabels_encodeLabels (before after : List UInt8) (fuel : Nat) (name : DnsName)
    (labelled : ∀ label ∈ labels, 1 ≤ label.length ∧ label.length ≤ 63) (enough : labels.length < fuel)
    (short : name.length ≤ 255) :
    parseLabels (before ++ (encodeLabels labels ++ 0 :: after)) fuel name before.length =
      if 255 < (labels.foldl pushLabel name).length then none
      else some (labels.foldl pushLabel name, before.length + (encodeLabels labels).length + 1) := by
  induction labels generalizing before fuel name with
  | nil =>
    obtain ⟨fuel, rfl⟩ : ∃ rest, fuel = rest + 1 := ⟨fuel - 1, by simp at enough; omega⟩
    have next : (before ++ (encodeLabels [] ++ 0 :: after))[before.length]? = some 0 := by simp [encodeLabels]
    rw [parseLabels, next]
    simp [encodeLabels, not_lt.mpr short]
  | cons label labels ih =>
    obtain ⟨fuel, rfl⟩ : ∃ rest, fuel = rest + 1 := ⟨fuel - 1, by simp at enough; omega⟩
    obtain ⟨nonempty, small⟩ := labelled label mem_cons_self
    have size : (UInt8.ofNat label.length).toNat = label.length := by
      rw [UInt8.toNat_ofNat']
      omega
    have split : before ++ (encodeLabels (label :: labels) ++ 0 :: after) =
        (before ++ UInt8.ofNat label.length :: label) ++ (encodeLabels labels ++ 0 :: after) := by
      simp [encodeLabels]
    have next : (before ++ (encodeLabels (label :: labels) ++ 0 :: after))[before.length]? =
        some (UInt8.ofNat label.length) := by
      simp [encodeLabels]
    have body : window (before ++ (encodeLabels (label :: labels) ++ 0 :: after)) (before.length + 1) label.length =
        label := by
      rw [window, ← drop_drop, drop_left]
      simp [encodeLabels]
    have nonzero : UInt8.ofNat label.length ≠ 0 := by
      intro zero
      rw [zero] at size
      simp at size
      omega
    have bounded : ¬ 63 < UInt8.ofNat label.length := by
      rw [UInt8.lt_iff_toNat_lt, size]
      exact not_lt.mpr small
    have inside : ¬ (before ++ (encodeLabels (label :: labels) ++ 0 :: after)).length <
        before.length + 1 + label.length := by
      rw [split]
      simp only [length_append, length_cons]
      omega
    rw [parseLabels, next]
    dsimp only
    rw [size, if_neg nonzero, if_neg bounded, if_neg inside, body, foldl_cons]
    split
    · next long => rw [if_pos (long.trans_le (length_foldl_pushLabel labels _))]
    rename_i fits
    have rest := ih (before ++ UInt8.ofNat label.length :: label) fuel (pushLabel name label)
      (fun other member => labelled other (mem_cons_of_mem _ member))
      (by simpa using enough) (not_lt.mp fits)
    have offset : (before ++ UInt8.ofNat label.length :: label).length = before.length + 1 + label.length := by
      simp only [length_append, length_cons]
      omega
    have total : before.length + 1 + label.length + (encodeLabels labels).length =
        before.length + (encodeLabels (label :: labels)).length := by
      simp [encodeLabels]
      omega
    rw [offset, ← split, total] at rest
    exact rest

theorem length_le_encodeLabels : labels.length ≤ (encodeLabels labels).length := by
  induction labels with
  | nil => exact le_rfl
  | cons label labels ih =>
    simp [encodeLabels] at ih ⊢
    omega

end

section

variable (query : DnsQuery)

theorem u8At_message {off : Nat} (inside : off < 12) : u8At query.message off = u8At query.header off := by
  unfold u8At DnsQuery.message
  rw [getD_eq_getElem?_getD, getD_eq_getElem?_getD, getElem?_append_left (by rw [query.headed]; exact inside)]

theorem u16At_of_drop {bytes rest : List UInt8} {word : UInt16} {off : Nat}
    (found : bytes.drop off = u16Bytes word ++ rest) : u16At bytes off = word := by
  have size : (u16Bytes word).length = 2 := length_toBigEndian ..
  have bytes : window bytes off 2 = u16Bytes word := by rw [window, found, take_left' size]
  rw [u16At, bytes, u16Bytes, bigEndian_toBigEndian word.toNat_lt, UInt16.ofNat_toNat]

def nameEnd : Nat := 12 + (encodeLabels query.labels).length + 1

theorem drop_nameEnd :
    query.message.drop (nameEnd query) = u16Bytes query.qtype ++ (u16Bytes query.qclass ++ query.trailer) := by
  have split : query.message = (query.header ++ encodeLabels query.labels ++ [0]) ++
      (u16Bytes query.qtype ++ (u16Bytes query.qclass ++ query.trailer)) := by
    simp [DnsQuery.message]
  have size : (query.header ++ encodeLabels query.labels ++ [0]).length = nameEnd query := by
    simp [nameEnd, query.headed, Nat.add_assoc]
  rw [split, ← size, drop_left]

theorem questionOf_message : DnsServer.questionOf query.message = if 255 < query.qname.length then none
    else some ⟨query.qname, query.qtype, query.qclass, nameEnd query + 4⟩ := by
  have size : query.message.length = nameEnd query + 4 + query.trailer.length := by
    simp [DnsQuery.message, nameEnd, query.headed, u16Bytes]
    omega
  have first : 12 ≤ query.message.length ∧ u8At query.message 2 &&& 0x80 = 0 := by
    constructor
    · rw [size, nameEnd]
      omega
    · rw [u8At_message query (show 2 < 12 by decide)]
      exact query.query
  have single : u16At query.message 4 = 1 := by
    have same : window query.message 4 2 = window query.header 4 2 := by
      rw [window, window, DnsQuery.message, drop_append_of_le_length (by rw [query.headed]; decide),
        take_append_of_le_length (by rw [length_drop, query.headed]; decide)]
    rw [u16At, same]
    exact query.single
  have parsed := parseLabels_encodeLabels query.labels query.header
    (u16Bytes query.qtype ++ u16Bytes query.qclass ++ query.trailer) (query.message.length + 1) [] query.labelled
    (by have bound := length_le_encodeLabels query.labels; rw [size, nameEnd]; omega) (Nat.zero_le _)
  rw [query.headed] at parsed
  have parsed : parseQname query.message 12 = if 255 < query.qname.length then none
      else some (query.qname, nameEnd query) := parsed
  have qclass : u16At query.message (nameEnd query + 2) = query.qclass := by
    have rest : query.message.drop (nameEnd query + 2) = u16Bytes query.qclass ++ query.trailer := by
      rw [← drop_drop, drop_nameEnd]
      exact drop_left' (length_toBigEndian ..)
    exact u16At_of_drop rest
  unfold DnsServer.questionOf
  rw [parsed]
  split
  · simp [guard, first, single]
  · have inside : nameEnd query + 4 ≤ query.message.length := by omega
    simp [guard, first, single, inside, u16At_of_drop (drop_nameEnd query), qclass]

end

variable {SocketAddr : Type} {Entry : Type} {name : DnsName} {pattern : Entry → DnsName}

theorem better_isSome {best : Option Entry}
    {entry : Entry} (some : best.isSome = true ∨ patternMatches (pattern entry) name = true) :
    (better pattern name best entry).isSome = true := by
  unfold better
  cases best with
  | none =>
    rw [if_pos (some.resolve_left (by simp))]
    rfl
  | some other =>
    split
    · dsimp only
      split <;> rfl
    · rfl

theorem isSome_foldl_better (entries : List Entry)
    {best : Option Entry} (some : best.isSome = true) : (entries.foldl (better pattern name) best).isSome = true := by
  induction entries generalizing best with
  | nil => exact some
  | cons entry entries ih => exact ih (better_isSome (.inl some))

theorem mostSpecific_isSome {entries : List Entry}
    {entry : Entry} (member : entry ∈ entries) (found : patternMatches (pattern entry) name = true) :
    (mostSpecific pattern name entries).isSome = true := by
  obtain ⟨before, after, rfl⟩ := append_of_mem member
  rw [mostSpecific, foldl_append, foldl_cons]
  exact isSome_foldl_better after (better_isSome (.inr found))

theorem lookup_sinkholed {zone : DnsZone SocketAddr} {qname : DnsName} {sinkhole : SinkholeEntry}
    (live : sinkhole ∈ zone.sinkholes) (found : patternMatches sinkhole.pattern (normalize qname) = true) :
    zone.lookup qname = .nxdomain ∨ zone.lookup qname = .zero := by
  obtain ⟨winner, best⟩ := Option.isSome_iff_exists.mp (@mostSpecific_isSome _ _ SinkholeEntry.pattern _ _ live found)
  unfold DnsZone.lookup
  dsimp only
  rw [best]
  cases mode : winner.mode with
  | nxdomain => exact .inl (by simp only [mode])
  | zero => exact .inr (by simp only [mode])

theorem length_overwrite_le {bytes patch : List UInt8} {start : Nat} :
    (overwrite bytes start patch).length ≤ bytes.length + patch.length := by
  simp [overwrite]
  omega

theorem udpBuild_isSome (src dst : Ipv4Addr) (srcPort dstPort : UInt16) {payload : List UInt8}
    (fits : payload.length ≤ 1000) :
    ∃ udp, udpBuild src dst srcPort dstPort payload = some udp ∧ udp.length ≤ 1010 := by
  have small : udpHeaderLen + payload.length < 0x10000 := by
    unfold udpHeaderLen
    omega
  unfold udpBuild
  rw [if_pos small]
  generalize header : u16Bytes srcPort ++ u16Bytes dstPort ++ toBigEndian 2 (udpHeaderLen + payload.length) ++ [0, 0] = head
  have size : head.length = 8 := by
    rw [← header]
    simp [u16Bytes]
  have segment : (head ++ payload).length < 0x10000 := by
    rw [length_append]
    omega
  simp only [l4Checksum, if_pos segment, Option.bind_eq_bind, Option.bind_some]
  refine ⟨_, rfl, length_overwrite_le.trans ?_⟩
  simp [u16Bytes]
  omega

theorem buildFrame_isSome (respond : DnsRespondCtx) {payload : List UInt8} (fits : payload.length ≤ 1000) :
    ∃ frame, respond.buildFrame payload = some frame := by
  obtain ⟨udp, built, size⟩ := udpBuild_isSome respond.serverIp respond.clientIp dnsPort respond.clientPort fits
  have small : ipv4MinHeaderLen + udp.length < 0x10000 := by
    unfold ipv4MinHeaderLen
    omega
  simp only [DnsRespondCtx.buildFrame, built, ipv4Build, if_pos small, Option.bind_eq_bind, Option.bind_some]
  exact ⟨_, rfl⟩

variable {questionEnd : Nat}

theorem length_buildResponse_le (msg : List UInt8) (rcode : UInt8) (answer : Option Ipv4Addr)
    (short : questionEnd ≤ 300) : (buildResponse msg questionEnd rcode answer).length ≤ 1000 := by
  have id : (msg.take 2).length ≤ 2 := length_take_le ..
  have question : ((msg.take questionEnd).drop 12).length ≤ 300 := by
    rw [length_drop, length_take]
    omega
  cases answer with
  | none =>
    simp only [buildResponse, length_append, u16Bytes, length_toBigEndian, length_cons, length_nil]
    omega
  | some ip =>
    simp only [buildResponse, length_append, u16Bytes, u32Bytes, octets, length_toBigEndian, length_cons, length_nil]
    omega

theorem reply_isReply (respond : DnsRespondCtx) (msg : List UInt8) (rcode : UInt8)
    (answer : Option Ipv4Addr) (short : questionEnd ≤ 300) :
    ∃ frame, (DnsServer.reply respond (buildResponse msg questionEnd rcode answer) : DnsAction SocketAddr) = .reply frame := by
  obtain ⟨frame, built⟩ := buildFrame_isSome respond (length_buildResponse_le msg rcode answer short)
  exact ⟨frame, by rw [DnsServer.reply, built]⟩

theorem forwardOr_isReply_iff (upstream : Option SocketAddr) (msg : List UInt8) (respond : DnsRespondCtx)
    (rcode : UInt8) (short : questionEnd ≤ 300) :
    (∃ frame, DnsServer.forwardOr upstream msg respond questionEnd rcode = .reply frame) ↔ upstream = none := by
  cases upstream with
  | none => exact iff_of_true (reply_isReply respond msg rcode none short) rfl
  | some u => exact iff_of_false (by rintro ⟨_, reply⟩; cases reply) (by simp)

/-- A query for a sinkholed name is answered locally exactly when its name fits
the server's text and there is no upstream or the server serves its type. -/
theorem handle_sinkholed_iff (zone : DnsZone SocketAddr) (frame : List UInt8) (respond : DnsRespondCtx) (query : DnsQuery)
    (arrived : DnsServer.received frame = some (respond, query.message)) (sinkhole : SinkholeEntry)
    (live : sinkhole ∈ zone.sinkholes) (found : patternMatches sinkhole.pattern (normalize query.qname) = true) :
    (∃ reply, DnsServer.handle zone frame = .reply reply) ↔
      query.qname.length ≤ 255 ∧ (zone.upstream = none ∨ query.Served) := by
  unfold DnsServer.handle
  rw [arrived]
  dsimp only
  rw [questionOf_message]
  by_cases long : 255 < query.qname.length
  · rw [if_pos long]
    exact iff_of_false (by rintro ⟨_, reply⟩; cases reply) fun fits => absurd fits.1 (not_le.mpr long)
  rw [if_neg long]
  have short : nameEnd query + 4 ≤ 300 := by
    have bound := query.named
    unfold nameEnd
    omega
  have opcode : DnsServer.opcode query.message = DnsServer.opcode query.header := by
    rw [DnsServer.opcode, DnsServer.opcode, u8At_message query (show 2 < 12 by decide)]
  refine Iff.trans ?_ (and_iff_right (not_lt.mp long)).symm
  unfold DnsServer.respondTo
  dsimp only
  rw [opcode]
  split
  · next unserved =>
    rw [forwardOr_isReply_iff _ _ _ _ short]
    refine (or_iff_left fun served => ?_).symm
    rcases unserved with other | other
    · exact other served.1
    · exact other served.2.1
  · next standard =>
    obtain ⟨standard, internet⟩ := not_or.mp standard
    have standard := not_not.mp standard
    have internet := not_not.mp internet
    split
    · next address =>
      have served : query.Served := ⟨standard, internet, by tauto⟩
      refine iff_of_true ?_ (.inr served)
      rcases lookup_sinkholed live found with answer | answer
      · rw [answer]
        exact reply_isReply _ _ _ _ short
      · rw [answer]
        exact reply_isReply _ _ _ _ short
    · next notAddress =>
      split
      · next address =>
        have served : query.Served := ⟨standard, internet, .inr (.inl address)⟩
        refine iff_of_true ?_ (.inr served)
        rcases lookup_sinkholed live found with answer | answer
        · rw [answer]
          exact reply_isReply _ _ _ _ short
        · rw [answer]
          exact reply_isReply _ _ _ _ short
      · next notV6 =>
        rw [forwardOr_isReply_iff _ _ _ _ short]
        refine (or_iff_left fun served => ?_).symm
        rcases served.2.2 with type | type | type
        · exact notAddress (.inl type)
        · exact notV6 type
        · exact notAddress (.inr type)

def sinkholedZone : DnsZone Nat := (((DnsZone.new [122]).withUpstream (some 7)).addSinkhole [97] .zero).2

def queryForA (qtype : UInt16) : DnsQuery where
  header := [0, 1, 1, 0, 0, 1, 0, 0, 0, 0, 0, 0]
  labels := [[97]]
  qtype
  qclass := qclassIn
  trailer := []
  headed := rfl
  query := by decide
  single := by decide
  labelled := by decide
  named := by decide

def guestFrame (qtype : UInt16) : List UInt8 :=
  [82, 84, 0, 0, 0, 1, 82, 84, 0, 0, 0, 2, 8, 0] ++
    [0x45, 0, 0, 47, 0, 0, 0, 0, 64, 17, 0, 0, 10, 0, 0, 2, 10, 0, 0, 1] ++
    [0xC0, 0, 0, 53, 0, 27, 0, 0] ++ (queryForA qtype).message

def guestRespond : DnsRespondCtx where
  clientMac := .ofOctets 82 84 0 0 0 2
  serverMac := .ofOctets 82 84 0 0 0 1
  clientIp := 0x0a000002
  serverIp := 0x0a000001
  clientPort := 0xC000

/-- An address query for a sinkholed name is answered. -/
theorem sinkholed_address_answered :
    DnsServer.received (guestFrame qtypeA) = some (guestRespond, (queryForA qtypeA).message) ∧
      ∃ reply, DnsServer.handle sinkholedZone (guestFrame qtypeA) = .reply reply := by
  have arrived : DnsServer.received (guestFrame qtypeA) = some (guestRespond, (queryForA qtypeA).message) := by rfl
  refine ⟨arrived, ?_⟩
  have served : (queryForA qtypeA).Served := ⟨by decide, rfl, .inl rfl⟩
  exact (handle_sinkholed_iff sinkholedZone _ guestRespond (queryForA qtypeA) arrived ⟨1, [97], .zero⟩
    (mem_singleton.mpr rfl) (by decide)).mpr ⟨by decide, .inr served⟩

/-- A text query for a sinkholed name goes to the upstream. -/
theorem sinkholed_text_forwarded : DnsServer.received (guestFrame 16) = some (guestRespond, (queryForA 16).message) ∧
      (∃ sinkhole ∈ sinkholedZone.sinkholes, patternMatches sinkhole.pattern (normalize (queryForA 16).qname) = true) ∧
      DnsServer.handle sinkholedZone (guestFrame 16) = .forwardUpstream 7 1 (queryForA 16).message guestRespond :=
  ⟨by rfl, ⟨⟨1, [97], .zero⟩, mem_singleton.mpr rfl, by decide⟩, by rfl⟩

/-! ## The zone against its live rules: two live entries of one name are one record -/

open Function (update_of_ne update_self)

namespace DnsZone

variable {SocketAddr : Type} {zone : DnsZone SocketAddr}

/-- A rule or a registration that has been added and not withdrawn. -/
inductive Live where
  | registration (name : DnsName) (ip : Ipv4Addr)
  | static (id : Nat) (pattern : DnsName) (ip : Ipv4Addr)
  | sinkhole (id : Nat) (pattern : DnsName) (mode : SinkholeMode)
  deriving DecidableEq

namespace Live

def ruleId? : Live → Option Nat
  | .registration _ _ => none
  | .static id _ _ => some id
  | .sinkhole id _ _ => some id

def registered? : Live → Option DnsName
  | .registration name _ => some name
  | _ => none

def sinkhole? : Live → Option SinkholeEntry
  | .sinkhole id pattern mode => some ⟨id, pattern, mode⟩
  | _ => none

def wildcard? : Live → Option WildcardRecord
  | .static id pattern ip => if wildLabel.isPrefixOf pattern then some ⟨id, pattern, ip⟩ else none
  | _ => none

def named? : Live → Option (DnsName × Ipv4Addr)
  | .registration name ip => some (name, ip)
  | .static _ pattern ip => if wildLabel.isPrefixOf pattern then none else some (pattern, ip)
  | .sinkhole _ _ _ => none

def addressOf? (name : DnsName) (live : Live) : Option Ipv4Addr :=
  live.named?.bind fun entry => if entry.1 = name then some entry.2 else none

end Live

def observe (zone : DnsZone SocketAddr) (live : List Live) : Event → List Live
  | .register name ip =>
    live.filter (fun entry => entry.registered? ≠ some (zone.fqdn name)) ++ [.registration (zone.fqdn name) ip]
  | .unregister name => live.filter fun entry => entry.registered? ≠ some (zone.fqdn name)
  | .setStatic pattern ip => live ++ [.static (zone.setStatic pattern ip).1 (normalize pattern) ip]
  | .addSinkhole pattern mode => live ++ [.sinkhole (zone.addSinkhole pattern mode).1 (normalize pattern) mode]
  | .removeRule id => live.filter fun entry => entry.ruleId? ≠ some id

/-- The answer that the live entries determine: the most specific sinkhole, the
last entry added for the name, the most specific wildcard. -/
def answerFrom (live : List Live) (upstream : Option SocketAddr) (qname : DnsName) : DnsAnswer :=
  let name := normalize qname
  match mostSpecific SinkholeEntry.pattern name (live.filterMap Live.sinkhole?) with
  | some s =>
    match s.mode with
    | .nxdomain => .nxdomain
    | .zero => .zero
  | none =>
    match (live.filterMap (Live.addressOf? name)).getLast? with
    | some ip => .a ip
    | none =>
      match mostSpecific WildcardRecord.pattern name (live.filterMap Live.wildcard?) with
      | some w => .a w.ip
      | none => if upstream.isSome then .forward else .nxdomain

def Respects (zone : DnsZone SocketAddr) (live : List Live) : Event → Prop
  | .register _ _ => True
  | .unregister name => ∀ id ip, Live.static id (zone.fqdn name) ip ∈ live → wildLabel.isPrefixOf (zone.fqdn name) = true
  | .setStatic _ _ => zone.nextId + 1 < 2 ^ 64
  | .addSinkhole _ _ => zone.nextId + 1 < 2 ^ 64
  | .removeRule id => ∀ entry ∈ live, ∀ other ∈ live, ∀ name ip otherIp, entry.ruleId? = some id →
      entry.named? = some (name, ip) → other.named? = some (name, otherIp) → other.ruleId? = some id

def runWith (zone : DnsZone SocketAddr) (live : List Live) : List Event → DnsZone SocketAddr × List Live
  | [] => (zone, live)
  | event :: events => runWith (zone.step event) (zone.observe live event) events

def RespectsAll (zone : DnsZone SocketAddr) (live : List Live) : List Event → Prop
  | [] => True
  | event :: events => zone.Respects live event ∧ RespectsAll (zone.step event) (zone.observe live event) events

structure Mirrors (zone : DnsZone SocketAddr) (live : List Live) : Prop where
  sinkholes : zone.sinkholes = live.filterMap Live.sinkhole?
  wildcards : zone.wildcards = live.filterMap Live.wildcard?
  records : ∀ name, (zone.records name).map RecordEntry.ip = (live.filterMap (Live.addressOf? name)).getLast?
  ruleNames : ∀ id name, zone.ruleNames.get? id = some name ↔
    ∃ ip, Live.static id name ip ∈ live ∧ wildLabel.isPrefixOf name = false
  ids : ∀ entry ∈ live, ∀ id, entry.ruleId? = some id → id ≤ zone.nextId
  distinct : live.Pairwise fun left right => ∀ id, left.ruleId? = some id → right.ruleId? ≠ some id

theorem lookup_of_mirrors {live : List Live} (mirrors : zone.Mirrors live) (qname : DnsName) :
    zone.lookup qname = answerFrom live zone.upstream qname := by
  unfold lookup answerFrom
  dsimp only
  rw [mirrors.sinkholes, mirrors.wildcards, ← mirrors.records]
  cases mostSpecific SinkholeEntry.pattern (normalize qname) (live.filterMap Live.sinkhole?) with
  | some _ => rfl
  | none =>
    dsimp only
    cases zone.records (normalize qname) with
    | some _ => rfl
    | none => rfl

variable {id : Nat} {entry : Live} {pattern name : DnsName} {ip : Ipv4Addr}

section

variable {live : List Live}

theorem filterMap_filter_of_none {β : Type} {keep : Live → Bool} {read : Live → Option β}
    (skips : ∀ entry ∈ live, keep entry = false → read entry = none) :
    (live.filter keep).filterMap read = live.filterMap read := by
  rw [filterMap_filter]
  refine filterMap_congr fun entry member => ?_
  cases kept : keep entry with
  | true => rfl
  | false => exact (skips entry member kept).symm

theorem Mirrors.same_rule (mirrors : zone.Mirrors live) {left right : Live} (leftLive : left ∈ live)
    (rightLive : right ∈ live) (leftId : left.ruleId? = some id) (rightId : right.ruleId? = some id) : left = right := by
  by_contra differ
  have symmetric : Std.Symm fun left right : Live => ∀ id, left.ruleId? = some id → right.ruleId? ≠ some id :=
    ⟨fun _ _ apart id rightId leftId => apart id leftId rightId⟩
  exact mirrors.distinct.forall leftLive rightLive differ id leftId rightId

theorem addressOf?_eq_none (other : ∀ ip, entry.named? ≠ some (name, ip)) : entry.addressOf? name = none := by
  unfold Live.addressOf?
  cases exact : entry.named? with
  | none => rfl
  | some found =>
    refine if_neg fun same => other found.2 ?_
    rw [exact, ← same]

theorem named?_static {address : Ipv4Addr} : (Live.static id pattern ip).named? = some (name, address) ↔
      wildLabel.isPrefixOf pattern = false ∧ pattern = name ∧ ip = address := by
  cases wild : wildLabel.isPrefixOf pattern <;> simp [Live.named?, wild]

theorem eq_registration (registered : entry.registered? = some name) : ∃ ip, entry = .registration name ip := by
  cases entry with
  | registration found ip =>
    cases registered
    exact ⟨ip, rfl⟩
  | static _ _ _ => cases registered
  | sinkhole _ _ _ => cases registered

theorem dropped_registration (live : List Live) (name : DnsName) :
    let kept := live.filter fun entry => entry.registered? ≠ some name
    kept.filterMap Live.sinkhole? = live.filterMap Live.sinkhole? ∧
      kept.filterMap Live.wildcard? = live.filterMap Live.wildcard? ∧
      (∀ other, other ≠ name → kept.filterMap (Live.addressOf? other) = live.filterMap (Live.addressOf? other)) ∧
      (∀ id pattern ip, Live.static id pattern ip ∈ kept ↔ Live.static id pattern ip ∈ live) := by
  have dropped {entry : Live} (gone : decide (entry.registered? ≠ some name) = false) :
      ∃ ip, entry = .registration name ip := eq_registration (by simpa using gone)
  refine ⟨filterMap_filter_of_none fun entry _ gone => ?_, filterMap_filter_of_none fun entry _ gone => ?_,
    fun other differ => filterMap_filter_of_none fun entry _ gone => ?_, fun id pattern ip => ?_⟩
  · obtain ⟨ip, rfl⟩ := dropped gone
    rfl
  · obtain ⟨ip, rfl⟩ := dropped gone
    rfl
  · obtain ⟨ip, rfl⟩ := dropped gone
    exact if_neg (Ne.symm differ)
  · simp [Live.registered?]

section

variable (mirrors : zone.Mirrors live)
include mirrors

theorem mirrors_register (name : DnsName) (ip : Ipv4Addr) :
    (zone.register name ip).Mirrors (zone.observe live (.register name ip)) := by
  obtain ⟨sinkholes, wildcards, addresses, statics⟩ := dropped_registration live (zone.fqdn name)
  have own : Live.addressOf? (zone.fqdn name) (.registration (zone.fqdn name) ip) = some ip := if_pos rfl
  refine ⟨?_, ?_, fun other => ?_, fun id pattern => ?_, fun entry member id ruleId => ?_, ?_⟩
  · rw [observe, filterMap_append, sinkholes]
    exact mirrors.sinkholes.trans (append_nil _).symm
  · rw [observe, filterMap_append, wildcards]
    exact mirrors.wildcards.trans (append_nil _).symm
  · rw [observe, filterMap_append]
    by_cases same : other = zone.fqdn name
    · subst same
      have record : (zone.register name ip).records (zone.fqdn name) = some ⟨ip, .dynamic⟩ := update_self ..
      rw [record, filterMap_cons_some own]
      simp
    have skipped : Live.addressOf? other (.registration (zone.fqdn name) ip) = none := if_neg (Ne.symm same)
    have record : (zone.register name ip).records other = zone.records other := update_of_ne same ..
    rw [record, filterMap_cons_none skipped, filterMap_nil, append_nil, addresses other same]
    exact mirrors.records other
  · refine (mirrors.ruleNames id pattern).trans (exists_congr fun ip => and_congr_left fun _ => ?_)
    rw [observe, mem_append, statics]
    simp
  · rcases mem_append.mp member with kept | added
    · exact mirrors.ids entry (mem_of_mem_filter kept) id ruleId
    · cases mem_singleton.mp added
      cases ruleId
  · refine pairwise_append.mpr ⟨mirrors.distinct.filter _, pairwise_singleton .., ?_⟩
    intro left _ right member id _ rightId
    cases mem_singleton.mp member
    cases rightId

theorem mirrors_unregister (respects : zone.Respects live (.unregister name)) :
    (zone.unregister name).2.Mirrors (zone.observe live (.unregister name)) := by
  obtain ⟨sinkholes, wildcards, addresses, statics⟩ := dropped_registration live (zone.fqdn name)
  refine ⟨mirrors.sinkholes.trans sinkholes.symm, mirrors.wildcards.trans wildcards.symm, fun other => ?_,
    fun id pattern => ?_, fun entry member => mirrors.ids entry (mem_of_mem_filter member),
    mirrors.distinct.filter _⟩
  · by_cases same : other = zone.fqdn name
    · subst same
      have none : (zone.observe live (.unregister name)).filterMap (Live.addressOf? (zone.fqdn name)) = [] := by
        refine filterMap_eq_nil_iff.mpr fun entry member => addressOf?_eq_none fun ip exact => ?_
        obtain ⟨before, kept⟩ := List.mem_filter.mp member
        cases entry with
        | registration found _ =>
          cases exact
          simp [Live.registered?] at kept
        | static id pattern _ =>
          obtain ⟨exactly, rfl, rfl⟩ := named?_static.mp exact
          exact absurd (respects id _ before) (by simp [exactly])
        | sinkhole _ _ _ => cases exact
      have record : (zone.unregister name).2.records (zone.fqdn name) = .none := update_self ..
      rw [record, none]
      rfl
    · have record : (zone.unregister name).2.records other = zone.records other := update_of_ne same ..
      rw [record, observe, addresses other same]
      exact mirrors.records other
  · refine (mirrors.ruleNames id pattern).trans (exists_congr fun ip => and_congr_left fun _ => ?_)
    exact (statics id pattern ip).symm

theorem distinct_append (fresh : zone.nextId + 1 < 2 ^ 64) (ruleId : entry.ruleId? = some zone.allocId) :
    ((live ++ [entry]).Pairwise fun left right => ∀ id, left.ruleId? = some id → right.ruleId? ≠ some id) ∧
      ∀ other ∈ live ++ [entry], ∀ id, other.ruleId? = some id → id ≤ zone.allocId := by
  have next : zone.allocId = zone.nextId + 1 := Nat.mod_eq_of_lt fresh
  constructor
  · refine pairwise_append.mpr ⟨mirrors.distinct, pairwise_singleton .., ?_⟩
    intro left member right last id leftId rightId
    cases mem_singleton.mp last
    have bound := mirrors.ids left member id leftId
    rw [ruleId] at rightId
    cases rightId
    omega
  intro other member id otherId
  rcases mem_append.mp member with before | last
  · exact (mirrors.ids other before id otherId).trans (by omega)
  cases mem_singleton.mp last
  rw [ruleId] at otherId
  cases otherId
  exact le_rfl

theorem mirrors_addSinkhole {mode : SinkholeMode} (fresh : zone.nextId + 1 < 2 ^ 64) :
    (zone.addSinkhole pattern mode).2.Mirrors (zone.observe live (.addSinkhole pattern mode)) := by
  obtain ⟨distinct, ids⟩ :=
    distinct_append mirrors fresh (show (Live.sinkhole zone.allocId (normalize pattern) mode).ruleId? = _ from rfl)
  refine ⟨?_, ?_, fun name => ?_, fun id name => ?_, ids, distinct⟩
  · rw [observe, filterMap_append, ← mirrors.sinkholes]
    rfl
  · rw [observe, filterMap_append]
    exact mirrors.wildcards.trans (append_nil _).symm
  · rw [observe, filterMap_append]
    exact (mirrors.records name).trans (congrArg List.getLast? (append_nil _).symm)
  · refine (mirrors.ruleNames id name).trans (exists_congr fun ip => and_congr_left fun _ => ?_)
    simp [observe]

end

theorem setStatic_of_wild
    (wild : wildLabel.isPrefixOf (normalize pattern) = true) : zone.setStatic pattern ip = (zone.allocId,
      { zone with nextId := zone.allocId, wildcards := zone.wildcards ++ [⟨zone.allocId, normalize pattern, ip⟩] }) :=
  if_pos wild

theorem setStatic_of_exact
    (exactly : wildLabel.isPrefixOf (normalize pattern) = false) : zone.setStatic pattern ip = (zone.allocId,
      { zone with
        nextId := zone.allocId
        records := Function.update zone.records (normalize pattern) (some ⟨ip, .static⟩)
        ruleNames := zone.ruleNames.insert zone.allocId (normalize pattern) }) :=
  if_neg (by simp [exactly])

section

variable (mirrors : zone.Mirrors live)
include mirrors

theorem mirrors_setStatic (fresh : zone.nextId + 1 < 2 ^ 64) :
    (zone.setStatic pattern ip).2.Mirrors (zone.observe live (.setStatic pattern ip)) := by
  have next : zone.allocId = zone.nextId + 1 := Nat.mod_eq_of_lt fresh
  obtain ⟨distinct, ids⟩ :=
    distinct_append mirrors fresh (show (Live.static zone.allocId (normalize pattern) ip).ruleId? = _ from rfl)
  rw [observe]
  cases wild : wildLabel.isPrefixOf (normalize pattern) with
  | true =>
    rw [setStatic_of_wild wild]
    have own : (Live.static zone.allocId (normalize pattern) ip).wildcard? = some ⟨zone.allocId, normalize pattern, ip⟩ :=
      if_pos wild
    have unnamed : (Live.static zone.allocId (normalize pattern) ip).named? = none := if_pos wild
    refine ⟨?_, ?_, fun name => ?_, fun ruleId name => ?_, ids, distinct⟩
    · rw [filterMap_append]
      exact mirrors.sinkholes.trans (append_nil _).symm
    · rw [filterMap_append, filterMap_cons_some own, ← mirrors.wildcards]
      rfl
    · have skipped : (Live.static zone.allocId (normalize pattern) ip).addressOf? name = none :=
        addressOf?_eq_none fun found => by simp [unnamed]
      rw [filterMap_append, filterMap_cons_none skipped, filterMap_nil, append_nil]
      exact mirrors.records name
    · refine (mirrors.ruleNames ruleId name).trans (exists_congr fun found => and_congr_left fun exactly => ?_)
      refine ⟨mem_append_left _, fun member => ?_⟩
      rcases mem_append.mp member with before | last
      · exact before
      · cases mem_singleton.mp last
        exact absurd wild (by simp [exactly])
  | false =>
    have exactly := wild
    rw [setStatic_of_exact exactly]
    have skipped : (Live.static zone.allocId (normalize pattern) ip).wildcard? = none := if_neg (by simp [exactly])
    have named : (Live.static zone.allocId (normalize pattern) ip).named? = some (normalize pattern, ip) :=
      if_neg (by simp [exactly])
    refine ⟨?_, ?_, fun name => ?_, fun ruleId name => ?_, ids, distinct⟩
    · rw [filterMap_append]
      exact mirrors.sinkholes.trans (append_nil _).symm
    · rw [filterMap_append, filterMap_cons_none skipped]
      exact mirrors.wildcards.trans (append_nil _).symm
    · rw [filterMap_append]
      by_cases same : name = normalize pattern
      · subst same
        have own : (Live.static zone.allocId (normalize pattern) ip).addressOf? (normalize pattern) = some ip := by
          simp [Live.addressOf?, named]
        rw [filterMap_cons_some own, filterMap_nil, getLast?_concat]
        exact congrArg _ (update_self ..)
      have other : (Live.static zone.allocId (normalize pattern) ip).addressOf? name = none := by
        simp [Live.addressOf?, named, Ne.symm same]
      rw [filterMap_cons_none other, filterMap_nil, append_nil]
      exact (congrArg _ (update_of_ne same ..)).trans (mirrors.records name)
    · show (zone.ruleNames.insert zone.allocId (normalize pattern)).get? ruleId = some name ↔ _
      rw [SortedMap.get?_insert]
      by_cases same : ruleId = zone.allocId
      · subst same
        rw [if_pos rfl]
        constructor
        · rintro found
          cases found
          exact ⟨ip, by simp, exactly⟩
        rintro ⟨found, member, -⟩
        rcases mem_append.mp member with before | last
        · have bound := mirrors.ids _ before zone.allocId rfl
          omega
        · cases mem_singleton.mp last
          rfl
      · rw [if_neg same, mirrors.ruleNames ruleId name]
        refine exists_congr fun found => and_congr_left fun _ => ?_
        simp [same]

theorem mirrors_removeRule (respects : zone.Respects live (.removeRule id)) :
    (zone.removeRule id).2.Mirrors (zone.observe live (.removeRule id)) := by
  have ids : ∀ entry ∈ zone.observe live (.removeRule id), ∀ other, entry.ruleId? = some other → other ≤ zone.nextId :=
    fun entry member => mirrors.ids entry (mem_of_mem_filter member)
  have distinct := mirrors.distinct.filter fun entry => entry.ruleId? ≠ some id
  have gone {entry : Live} (dropped : decide (entry.ruleId? ≠ some id) = false) : entry.ruleId? = some id := by
    simpa using dropped
  unfold removeRule
  cases found : zone.ruleNames.get? id with
  | some name =>
    obtain ⟨ip, member, exactly⟩ := (mirrors.ruleNames id name).mp found
    have named : (Live.static id name ip).named? = some (name, ip) := if_neg (by simp [exactly])
    have only {entry : Live} (live : entry ∈ live) (ruleId : entry.ruleId? = some id) : entry = .static id name ip :=
      mirrors.same_rule live member ruleId rfl
    refine ⟨?_, ?_, fun other => ?_, fun other pattern => ?_, ids, distinct⟩
    · refine mirrors.sinkholes.trans (filterMap_filter_of_none fun entry member dropped => ?_).symm
      rw [only member (gone dropped)]
      rfl
    · refine mirrors.wildcards.trans (filterMap_filter_of_none fun entry member dropped => ?_).symm
      rw [only member (gone dropped)]
      exact if_neg (by simp [exactly])
    · by_cases same : other = name
      · subst same
        have none : (zone.observe live (.removeRule id)).filterMap (Live.addressOf? other) = [] := by
          refine filterMap_eq_nil_iff.mpr fun entry kept => addressOf?_eq_none fun otherIp exact => ?_
          obtain ⟨before, kept⟩ := List.mem_filter.mp kept
          have ruleId := respects _ member entry before other ip otherIp rfl named exact
          simp [ruleId] at kept
        rw [none]
        exact congrArg _ (update_self ..)
      rw [observe, filterMap_filter_of_none fun entry member dropped => ?_]
      · exact (congrArg _ (update_of_ne same ..)).trans (mirrors.records other)
      rw [only member (gone dropped)]
      refine addressOf?_eq_none fun otherIp exact => same ?_
      rw [named] at exact
      cases exact
      rfl
    · show (zone.ruleNames.erase id).get? other = some pattern ↔ _
      rw [SortedMap.get?_erase]
      by_cases same : other = id
      · subst same
        simp [observe, Live.ruleId?]
      rw [if_neg same, mirrors.ruleNames other pattern]
      refine exists_congr fun found => and_congr_left fun _ => ?_
      simp [observe, Live.ruleId?, same]
  | none =>
    have pattern {entry : Live} (live : entry ∈ live) (ruleId : entry.ruleId? = some id) (name : DnsName)
        (ip : Ipv4Addr) : entry.named? ≠ some (name, ip) := by
      intro exact
      cases entry with
      | registration _ _ => cases ruleId
      | static ruleId' _ _ =>
        cases ruleId
        obtain ⟨exactly, rfl, rfl⟩ := named?_static.mp exact
        have named := (mirrors.ruleNames id _).mpr ⟨_, live, exactly⟩
        rw [found] at named
        cases named
      | sinkhole _ _ _ => cases exact
    refine ⟨?_, ?_, fun other => ?_, fun other name => ?_, ids, distinct⟩
    · show zone.sinkholes.filter _ = _
      rw [mirrors.sinkholes, filter_filterMap, observe, filterMap_filter]
      refine filterMap_congr fun entry _ => ?_
      cases entry with
      | sinkhole other _ _ => by_cases same : other = id <;> simp [Live.sinkhole?, Live.ruleId?, same]
      | registration _ _ => rfl
      | static _ _ _ => simp [Live.sinkhole?]
    · show zone.wildcards.filter _ = _
      rw [mirrors.wildcards, filter_filterMap, observe, filterMap_filter]
      refine filterMap_congr fun entry _ => ?_
      cases entry with
      | static other pattern _ =>
        by_cases same : other = id <;> by_cases wild : wildLabel.isPrefixOf pattern = true <;>
          simp [Live.wildcard?, Live.ruleId?, same, wild]
      | registration _ _ => rfl
      | sinkhole _ _ _ => simp [Live.wildcard?]
    · rw [observe, filterMap_filter_of_none fun entry member dropped => ?_]
      · exact mirrors.records other
      · exact addressOf?_eq_none (pattern member (gone dropped) other)
    · refine (mirrors.ruleNames other name).trans (exists_congr fun ip => and_congr_left fun exactly => ?_)
      refine ⟨fun member => List.mem_filter.mpr ⟨member, ?_⟩, mem_of_mem_filter⟩
      refine decide_eq_true fun same => ?_
      exact pattern member same name ip (if_neg (by simp [exactly]))

theorem mirrors_step {event : Event} (respects : zone.Respects live event) :
    (zone.step event).Mirrors (zone.observe live event) := by
  cases event with
  | register name ip => exact mirrors_register mirrors name ip
  | unregister name => exact mirrors_unregister mirrors respects
  | setStatic pattern ip => exact mirrors_setStatic mirrors respects
  | addSinkhole pattern mode => exact mirrors_addSinkhole mirrors respects
  | removeRule id => exact mirrors_removeRule mirrors respects

end

theorem upstream_step (zone : DnsZone SocketAddr) (event : Event) : (zone.step event).upstream = zone.upstream := by
  cases event with
  | register _ _ => rfl
  | unregister _ => rfl
  | setStatic pattern ip =>
    unfold step setStatic
    dsimp only
    split <;> rfl
  | addSinkhole _ _ => rfl
  | removeRule id =>
    unfold step removeRule
    dsimp only
    split <;> rfl

theorem mirrors_run (events : List Event) (mirrors : zone.Mirrors live) (respects : zone.RespectsAll live events) :
    (zone.runWith live events).1.Mirrors (zone.runWith live events).2 := by
  induction events generalizing zone live with
  | nil => exact mirrors
  | cons event events ih => exact ih (mirrors_step mirrors respects.1) respects.2

theorem mirrors_new (suffix : DnsName) (upstream : Option SocketAddr) :
    ((new suffix).withUpstream upstream).Mirrors [] where
  sinkholes := rfl
  wildcards := rfl
  records _ := rfl
  ruleNames id name := by
    show SortedMap.empty.get? id = some name ↔ _
    simp [SortedMap.empty, SortedMap.get?]
  ids _ member := absurd member not_mem_nil
  distinct := .nil

end

/-- Along a respectful run the zone answers every name as its live entries
determine. -/
theorem lookup_run_eq_answerFrom (suffix : DnsName) (upstream : Option SocketAddr) (events : List Event)
    (respects : ((new suffix).withUpstream upstream).RespectsAll [] events) (qname : DnsName) :
    (((new suffix).withUpstream upstream).runWith [] events).1.lookup qname =
      answerFrom (((new suffix).withUpstream upstream).runWith [] events).2 upstream qname := by
  have mirrors := mirrors_run events (mirrors_new suffix upstream) respects
  have kept (zone : DnsZone SocketAddr) (live : List Live) (events : List Event) :
      (zone.runWith live events).1.upstream = zone.upstream := by
    induction events generalizing zone live with
    | nil => rfl
    | cons event events ih => exact (ih _ _).trans (upstream_step zone event)
  rw [lookup_of_mirrors mirrors, kept]
  rfl

def labZone : DnsZone Nat := (new [122]).withUpstream none

def nameA : DnsName := [97]

def withdrawal : List Event := [.setStatic nameA 1, .addSinkhole nameA .zero, .removeRule 1]

theorem lookup_after_withdrawal : labZone.RespectsAll [] withdrawal ∧
    (labZone.runWith [] withdrawal).1.lookup nameA = answerFrom (labZone.runWith [] withdrawal).2 labZone.upstream nameA := by
  have first : labZone.nextId + 1 < 2 ^ 64 := by decide
  have second : (labZone.step (.setStatic nameA 1)).nextId + 1 < 2 ^ 64 := by decide +kernel
  have respects : labZone.RespectsAll [] withdrawal := by
    refine ⟨first, second, fun entry _ other member name ip otherIp _ _ exact => ?_, trivial⟩
    have member : other ∈ [Live.static 1 nameA 1, Live.sinkhole 2 nameA .zero] := member
    rcases mem_cons.mp member with rfl | last
    · rfl
    · cases mem_singleton.mp last
      cases exact
  exact ⟨respects, lookup_run_eq_answerFrom _ _ _ respects nameA⟩

/-- Two rules for one name: withdrawing the first takes the second with it. -/
theorem withdrawal_takes_both :
    let after := labZone.runWith [] [.setStatic nameA 1, .setStatic nameA 2, .removeRule 1]
    after.1.lookup nameA ≠ answerFrom after.2 labZone.upstream nameA := by
  decide +kernel

end DnsZone

end Vmlab.Net
