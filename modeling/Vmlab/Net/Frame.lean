import Vmlab.Library.Serial
import Vmlab.Net.Offload

/-! Link and network addresses as the fabric stores them, and the views and builders of the frames it reads and makes
(`src/net/frame.rs`). -/

namespace Vmlab.Net

open Library

structure MacAddr where
  octets : List UInt8
  sized : octets.length = 6
  deriving DecidableEq

def MacAddr.ofOctets (a b c d e f : UInt8) : MacAddr := ⟨[a, b, c, d, e, f], rfl⟩

instance : LinearOrder MacAddr :=
  LinearOrder.lift' (fun mac => bigEndian mac.octets) fun left right same => by
    have equal := bigEndian_injective same (left.sized.trans right.sized.symm)
    cases left
    cases right
    cases equal
    rfl

/-- An IPv4 address, in host order. -/
abbrev Ipv4Addr := BitVec 32

def octets (addr : Ipv4Addr) : List UInt8 := toBigEndian 4 addr.toNat

def ipv4From (bytes : List UInt8) : Ipv4Addr := BitVec.ofNat 32 (bigEndian bytes)

def macAt? (buffer : List UInt8) (start : Nat) : Option MacAddr :=
  if sized : (window buffer start 6).length = 6 then some ⟨window buffer start 6, sized⟩ else none

structure Ipv4Net where
  addr : Ipv4Addr
  prefixLen : Nat
  bounded : prefixLen ≤ 32
  deriving DecidableEq

namespace Ipv4Net

def hostmask (net : Ipv4Net) : Ipv4Addr := BitVec.allOnes 32 >>> net.prefixLen
def network (net : Ipv4Net) : Ipv4Addr := net.addr &&& ~~~net.hostmask
def broadcast (net : Ipv4Net) : Ipv4Addr := net.addr ||| net.hostmask
def netmask (net : Ipv4Net) : Ipv4Addr := ~~~net.hostmask
def contains (net : Ipv4Net) (ip : Ipv4Addr) : Bool := net.network ≤ ip ∧ ip ≤ net.broadcast

def margin (net : Ipv4Net) : Nat := if net.prefixLen < 31 then 1 else 0

def searchFrom (accept : Ipv4Addr → Bool) (first : Nat) : Nat → Option Ipv4Addr
  | 0 => none
  | count + 1 =>
    if accept (BitVec.ofNat 32 first) then some (BitVec.ofNat 32 first)
    else searchFrom accept (first + 1) count

def findHost (net : Ipv4Net) (accept : Ipv4Addr → Bool) : Option Ipv4Addr :=
  searchFrom accept (net.network.toNat + net.margin)
    (net.broadcast.toNat + 1 - (net.network.toNat + 2 * net.margin))

end Ipv4Net

def isMulticast (mac : MacAddr) : Bool := mac.octets.headD 0 &&& 1 ≠ 0

@[simp] theorem length_octets (addr : Ipv4Addr) : (octets addr).length = 4 := by
  simp [octets]

theorem ipv4From_octets (addr : Ipv4Addr) : ipv4From (octets addr) = addr := by
  rw [ipv4From, octets, bigEndian_toBigEndian (by simpa using addr.isLt), BitVec.ofNat_toNat, BitVec.setWidth_eq]

namespace Ipv4Net

variable {found : Ipv4Addr} {accept : Ipv4Addr → Bool}

theorem searchFrom_spec {first count : Nat} (search : searchFrom accept first count = some found) :
    accept found = true ∧ ∃ offset < count, found = BitVec.ofNat 32 (first + offset) := by
  induction count generalizing first with
  | zero => cases search
  | succ count ih =>
    rw [searchFrom] at search
    split at search
    · next accepted =>
      cases search
      exact ⟨accepted, 0, Nat.zero_lt_succ _, rfl⟩
    · obtain ⟨accepted, offset, below, shape⟩ := ih search
      exact ⟨accepted, offset + 1, Nat.succ_lt_succ below, by rw [shape, Nat.add_right_comm, Nat.add_assoc]⟩

theorem findHost_spec {net : Ipv4Net}
    (search : net.findHost accept = some found) : accept found = true ∧ net.contains found = true := by
  obtain ⟨accepted, offset, below, rfl⟩ := searchFrom_spec search
  have bound := net.broadcast.isLt
  have value : (BitVec.ofNat 32 (net.network.toNat + net.margin + offset)).toNat =
      net.network.toNat + net.margin + offset := by
    rw [BitVec.toNat_ofNat]
    omega
  refine ⟨accepted, decide_eq_true ⟨?_, ?_⟩⟩
  · rw [BitVec.le_def, value]
    omega
  · rw [BitVec.le_def, value]
    omega

end Ipv4Net

/-! ### Views over IPv4, UDP, TCP and ICMP bytes, and the builders -/

def ethertypeIpv4 : UInt16 := 0x0800

def ipprotoIcmp : UInt8 := 1
def ipprotoTcp : UInt8 := 6
def ipprotoUdp : UInt8 := 17

def ethHeaderLen : Nat := 14

def tcpFin : UInt8 := 0x01
def tcpSyn : UInt8 := 0x02
def tcpRst : UInt8 := 0x04
def tcpPsh : UInt8 := 0x08
def tcpAck : UInt8 := 0x10

section

variable (buf : List UInt8)

def u8At (off : Nat) : UInt8 := buf.getD off 0

def u16At (off : Nat) : UInt16 := UInt16.ofNat (bigEndian (window buf off 2))

def u32At (off : Nat) : BitVec 32 := BitVec.ofNat 32 (bigEndian (window buf off 4))

def ipv4At (off : Nat) : Ipv4Addr := ipv4From (window buf off 4)

end

def u16Bytes (word : UInt16) : List UInt8 := toBigEndian 2 word.toNat

def u32Bytes (word : BitVec 32) : List UInt8 := toBigEndian 4 word.toNat

def internetChecksum (data : List UInt8) : UInt16 := Offload.checksum data

def l4Checksum (src dst : Ipv4Addr) (proto : UInt8) (segment : List UInt8) : Option UInt16 :=
  if segment.length < 0x10000 then
    some (internetChecksum
      (octets src ++ octets dst ++ [0, proto] ++ toBigEndian 2 segment.length ++ segment))
  else none

structure EthView where
  buf : List UInt8
  wellFormed : ethHeaderLen ≤ buf.length

namespace EthView

def parse (buf : List UInt8) : Option EthView :=
  if wellFormed : ethHeaderLen ≤ buf.length then some ⟨buf, wellFormed⟩ else none

def ethertype (eth : EthView) : UInt16 := u16At eth.buf 12
def payload (eth : EthView) : List UInt8 := eth.buf.drop ethHeaderLen

end EthView

def ethBuild (dst src : MacAddr) (ethertype : UInt16) (payload : List UInt8) : List UInt8 :=
  dst.octets ++ src.octets ++ u16Bytes ethertype ++ payload

def ipv4MinHeaderLen : Nat := 20

def ipv4WellFormed (buf : List UInt8) : Prop :=
  ipv4MinHeaderLen ≤ buf.length ∧ u8At buf 0 >>> 4 = 4 ∧
    ipv4MinHeaderLen ≤ (u8At buf 0 &&& 0x0F).toNat * 4 ∧
    (u8At buf 0 &&& 0x0F).toNat * 4 ≤ buf.length ∧
    (u8At buf 0 &&& 0x0F).toNat * 4 ≤ (u16At buf 2).toNat ∧ (u16At buf 2).toNat ≤ buf.length

instance (buf : List UInt8) : Decidable (ipv4WellFormed buf) := inferInstanceAs (Decidable (_ ∧ _))

structure Ipv4View where
  buf : List UInt8
  wellFormed : ipv4WellFormed buf
  deriving DecidableEq

namespace Ipv4View

def parse (buf : List UInt8) : Option Ipv4View :=
  if wellFormed : ipv4WellFormed buf then some ⟨buf, wellFormed⟩ else none

def ihl (ip : Ipv4View) : UInt8 := u8At ip.buf 0 &&& 0x0F
def headerLen (ip : Ipv4View) : Nat := ip.ihl.toNat * 4
def totalLen (ip : Ipv4View) : UInt16 := u16At ip.buf 2
def proto (ip : Ipv4View) : UInt8 := u8At ip.buf 9
def src (ip : Ipv4View) : Ipv4Addr := ipv4At ip.buf 12
def dst (ip : Ipv4View) : Ipv4Addr := ipv4At ip.buf 16

def payload (ip : Ipv4View) : List UInt8 := (ip.buf.take ip.totalLen.toNat).drop ip.headerLen

end Ipv4View

def ipv4Build (src dst : Ipv4Addr) (proto ttl : UInt8) (payload : List UInt8) (id : UInt16) : Option (List UInt8) :=
  if ipv4MinHeaderLen + payload.length < 0x10000 then
    let header :=
      [0x45, 0] ++ toBigEndian 2 (ipv4MinHeaderLen + payload.length) ++ u16Bytes id ++ [0, 0] ++
        [ttl, proto, 0, 0] ++ octets src ++ octets dst
    some (overwrite header 10 (u16Bytes (internetChecksum header)) ++ payload)
  else none

def udpHeaderLen : Nat := 8

def udpWellFormed (buf : List UInt8) : Prop :=
  udpHeaderLen ≤ buf.length ∧ udpHeaderLen ≤ (u16At buf 4).toNat ∧ (u16At buf 4).toNat ≤ buf.length

instance (buf : List UInt8) : Decidable (udpWellFormed buf) := inferInstanceAs (Decidable (_ ∧ _))

structure UdpView where
  buf : List UInt8
  wellFormed : udpWellFormed buf

namespace UdpView

def parse (buf : List UInt8) : Option UdpView :=
  if wellFormed : udpWellFormed buf then some ⟨buf, wellFormed⟩ else none

def srcPort (udp : UdpView) : UInt16 := u16At udp.buf 0
def dstPort (udp : UdpView) : UInt16 := u16At udp.buf 2
def len (udp : UdpView) : UInt16 := u16At udp.buf 4
def payload (udp : UdpView) : List UInt8 := (udp.buf.take udp.len.toNat).drop udpHeaderLen

end UdpView

def udpBuild (srcIp dstIp : Ipv4Addr) (srcPort dstPort : UInt16) (payload : List UInt8) : Option (List UInt8) :=
  if udpHeaderLen + payload.length < 0x10000 then do
    let segment :=
      u16Bytes srcPort ++ u16Bytes dstPort ++ toBigEndian 2 (udpHeaderLen + payload.length) ++ [0, 0] ++ payload
    let csum ← l4Checksum srcIp dstIp ipprotoUdp segment
    some (overwrite segment 6 (u16Bytes (if csum = 0 then 0xFFFF else csum)))
  else none

def tcpMinHeaderLen : Nat := 20
def tcpMaxOptionsLen : Nat := 40

def tcpWellFormed (buf : List UInt8) : Prop :=
  tcpMinHeaderLen ≤ buf.length ∧ tcpMinHeaderLen ≤ (u8At buf 12 >>> 4).toNat * 4 ∧
    (u8At buf 12 >>> 4).toNat * 4 ≤ buf.length

instance (buf : List UInt8) : Decidable (tcpWellFormed buf) := inferInstanceAs (Decidable (_ ∧ _))

structure TcpView where
  buf : List UInt8
  wellFormed : tcpWellFormed buf

namespace TcpView

def parse (buf : List UInt8) : Option TcpView :=
  if wellFormed : tcpWellFormed buf then some ⟨buf, wellFormed⟩ else none

def srcPort (tcp : TcpView) : UInt16 := u16At tcp.buf 0
def dstPort (tcp : TcpView) : UInt16 := u16At tcp.buf 2
def seq (tcp : TcpView) : BitVec 32 := u32At tcp.buf 4
def ack (tcp : TcpView) : BitVec 32 := u32At tcp.buf 8
def dataOffset (tcp : TcpView) : Nat := (u8At tcp.buf 12 >>> 4).toNat * 4
def flags (tcp : TcpView) : UInt8 := u8At tcp.buf 13
def isFin (tcp : TcpView) : Bool := tcp.flags &&& tcpFin ≠ 0
def isSyn (tcp : TcpView) : Bool := tcp.flags &&& tcpSyn ≠ 0
def isRst (tcp : TcpView) : Bool := tcp.flags &&& tcpRst ≠ 0
def isAck (tcp : TcpView) : Bool := tcp.flags &&& tcpAck ≠ 0
def payload (tcp : TcpView) : List UInt8 := tcp.buf.drop tcp.dataOffset

end TcpView

structure TcpFields where
  srcPort : UInt16
  dstPort : UInt16
  seq : BitVec 32
  ack : BitVec 32
  flags : UInt8
  window : UInt16
  options : List UInt8

def tcpBuild (srcIp dstIp : Ipv4Addr) (fields : TcpFields) (payload : List UInt8) :
    Option (List UInt8) := do
  let opts := fields.options.take tcpMaxOptionsLen
  let headerLen := tcpMinHeaderLen + (opts.length + 3) / 4 * 4
  let segment :=
    u16Bytes fields.srcPort ++ u16Bytes fields.dstPort ++ u32Bytes fields.seq ++ u32Bytes fields.ack ++
      [UInt8.ofNat (headerLen / 4) <<< 4, fields.flags] ++ u16Bytes fields.window ++ [0, 0] ++ [0, 0] ++
      opts ++ List.replicate (headerLen - tcpMinHeaderLen - opts.length) 0 ++ payload
  let csum ← l4Checksum srcIp dstIp ipprotoTcp segment
  some (overwrite segment 16 (u16Bytes csum))

def icmpHeaderLen : Nat := 8
def icmpEchoReply : UInt8 := 0
def icmpDestUnreachable : UInt8 := 3
def icmpEchoRequest : UInt8 := 8

structure IcmpView where
  buf : List UInt8
  wellFormed : icmpHeaderLen ≤ buf.length

namespace IcmpView

def parse (buf : List UInt8) : Option IcmpView :=
  if wellFormed : icmpHeaderLen ≤ buf.length then some ⟨buf, wellFormed⟩ else none

def icmpType (icmp : IcmpView) : UInt8 := u8At icmp.buf 0

def identifier (icmp : IcmpView) : UInt16 := u16At icmp.buf 4

end IcmpView

def icmpBuild (icmpType code : UInt8) (rest payload : List UInt8) : List UInt8 :=
  let message := [icmpType, code, 0, 0] ++ rest ++ payload
  overwrite message 2 (u16Bytes (internetChecksum message))

def icmpUnreachableFor (original : List UInt8) (code : UInt8) : List UInt8 :=
  let quoteLen :=
    match Ipv4View.parse original with
    | some ip => min (ip.headerLen + 8) original.length
    | none => min original.length 28
  icmpBuild icmpDestUnreachable code [0, 0, 0, 0] (original.take quoteLen)

namespace Ipv4View

variable {ip : Ipv4View} (ip : Ipv4View)

theorem headerLen_ge : 20 ≤ ip.headerLen := ip.wellFormed.2.2.1

theorem headerLen_le_totalLen : ip.headerLen ≤ ip.totalLen.toNat := ip.wellFormed.2.2.2.2.1

theorem totalLen_le : ip.totalLen.toNat ≤ ip.buf.length := ip.wellFormed.2.2.2.2.2

theorem length_clipped : (ip.buf.take ip.totalLen.toNat).length = ip.totalLen.toNat :=
  List.length_take_of_le ip.totalLen_le

theorem length_payload_lt : ip.payload.length < 2 ^ 16 := by
  have bound := ip.totalLen.toNat_lt
  have header := ip.headerLen_ge
  have total := ip.headerLen_le_totalLen
  simp only [payload, List.length_drop, List.length_take]
  omega

end Ipv4View

end Vmlab.Net
