import Vmlab.Library.SortedMap
import Vmlab.Net.Frame
import Vmlab.Library.Tlv

/-!
# The DHCP server of a segment gateway

One frame in, at most one frame out, over a table of leases
(`src/net/dhcp.rs`). Instants are milliseconds.
-/

namespace Vmlab.Net

open Library List

def dhcpServerPort : UInt16 := 67
def dhcpClientPort : UInt16 := 68

def dhcpDiscover : UInt8 := 1
def dhcpOffer : UInt8 := 2
def dhcpRequest : UInt8 := 3
def dhcpDecline : UInt8 := 4
def dhcpAck : UInt8 := 5
def dhcpNak : UInt8 := 6
def dhcpRelease : UInt8 := 7

def magicCookie : List UInt8 := [99, 130, 83, 99]
def bootpMinLen : Nat := 240
def flagBroadcast : UInt16 := 0x8000

def optPad : UInt8 := 0
def optSubnetMask : UInt8 := 1
def optRouter : UInt8 := 3
def optDns : UInt8 := 6
def optDomain : UInt8 := 15
def optMtu : UInt8 := 26
def optRequestedIp : UInt8 := 50
def optLeaseTime : UInt8 := 51
def optMsgType : UInt8 := 53
def optServerId : UInt8 := 54
def optClasslessRoutes : UInt8 := 121
def optEnd : UInt8 := 255

structure DhcpConfig where
  subnet : Ipv4Net
  gateway : Ipv4Addr
  router : Ipv4Addr
  serverMac : MacAddr
  dnsServer : Option Ipv4Addr
  domain : Option (List UInt8)
  routes : List (Ipv4Net × Ipv4Addr)
  reservations : SortedMap MacAddr Ipv4Addr
  leaseSecs : BitVec 32
  mtu : UInt16

def DhcpConfig.new (subnet : Ipv4Net) (gateway : Ipv4Addr) (serverMac : MacAddr) : DhcpConfig where
  subnet
  gateway
  router := gateway
  serverMac
  dnsServer := none
  domain := none
  routes := []
  reservations := .empty
  leaseSecs := 3600
  mtu := 1500

structure Lease where
  ip : Ipv4Addr
  expiry : Nat
  deriving DecidableEq

structure DhcpServer where
  config : DhcpConfig
  leases : SortedMap MacAddr Lease
  declined : List Ipv4Addr

structure BootpRequest where
  xid : BitVec 32
  flags : UInt16
  ciaddr : Ipv4Addr
  giaddr : Ipv4Addr
  chaddr : MacAddr
  msgType : UInt8
  requestedIp : Option Ipv4Addr
  serverId : Option Ipv4Addr

structure RequestOptions where
  msgType : Option UInt8
  requestedIp : Option Ipv4Addr
  serverId : Option Ipv4Addr

def RequestOptions.set (options : RequestOptions) (code : UInt8) (value : List UInt8) : RequestOptions :=
  if code = optMsgType ∧ value.length = 1 then { options with msgType := value.head? }
  else if code = optRequestedIp ∧ value.length = 4 then { options with requestedIp := some (ipv4From value) }
  else if code = optServerId ∧ value.length = 4 then { options with serverId := some (ipv4From value) }
  else options

def scanOptions : Nat → List UInt8 → RequestOptions → Option RequestOptions
  | 0, _, options => some options
  | _ + 1, [], options => some options
  | fuel + 1, code :: rest, options =>
    if code = optPad then scanOptions fuel rest options
    else if code = optEnd then some options
    else
      match rest with
      | [] => none
      | len :: body =>
        if body.length < len.toNat then none
        else scanOptions fuel (body.drop len.toNat) (options.set code (body.take len.toNat))

def parseBootp (bytes : List UInt8) : Option BootpRequest :=
  if bytes.length < bootpMinLen then none
  else if u8At bytes 0 ≠ 1 ∨ u8At bytes 1 ≠ 1 ∨ u8At bytes 2 ≠ 6 then none
  else if window bytes 236 4 ≠ magicCookie then none
  else do
    let chaddr ← macAt? bytes 28
    let area := bytes.drop bootpMinLen
    let options ← scanOptions area.length area { msgType := none, requestedIp := none, serverId := none }
    let msgType ← options.msgType
    some
      { xid := u32At bytes 4
        flags := u16At bytes 10
        ciaddr := ipv4At bytes 12
        giaddr := ipv4At bytes 24
        chaddr
        msgType
        requestedIp := options.requestedIp
        serverId := options.serverId }

/-- The instants one message is served at, in the order the server reads
them. -/
structure Clock where
  purged : Nat
  looked : Nat
  searched : Nat
  granted : Nat
  ordered : purged ≤ looked ∧ looked ≤ searched ∧ searched ≤ granted

inductive Answer where
  | offer (ip : Ipv4Addr)
  | ack (ip : Ipv4Addr)
  | nak
  deriving DecidableEq

namespace DhcpServer

def new (config : DhcpConfig) : DhcpServer := { config, leases := .empty, declined := [] }

variable (server : DhcpServer)

def leaseOf (now : Nat) (mac : MacAddr) : Option Ipv4Addr :=
  ((server.leases.get? mac).filter fun lease => now < lease.expiry).map Lease.ip

def leasedIps (now : Nat) : List Ipv4Addr :=
  ((server.leases.entries.map Prod.snd).filter fun lease => now < lease.expiry).map Lease.ip

def taken (now : Nat) : List Ipv4Addr :=
  server.leasedIps now ++ server.config.reservations.entries.map Prod.snd ++ [server.config.gateway] ++
    server.declined

def alloc (now : Nat) : Option Ipv4Addr :=
  server.config.subnet.findHost fun host => !(server.taken now).contains host

def ipFor (clock : Clock) (mac : MacAddr) : Option Ipv4Addr :=
  (server.config.reservations.get? mac).or
    ((server.leaseOf clock.looked mac).or (server.alloc clock.searched))

def requestable (now : Nat) (ip : Ipv4Addr) : Bool :=
  server.config.subnet.contains ip ∧ ip ≠ server.config.subnet.network ∧
    ip ≠ server.config.subnet.broadcast ∧ ip ≠ server.config.gateway ∧
    ip ∉ server.config.reservations.entries.map Prod.snd ∧ ip ∉ server.declined ∧
    ip ∉ server.leasedIps now

def grant (now : Nat) (mac : MacAddr) (ip : Ipv4Addr) : DhcpServer :=
  { server with
    leases := server.leases.insert mac { ip, expiry := now + server.config.leaseSecs.toNat * 1000 } }

def purgeExpired (now : Nat) : DhcpServer :=
  { server with leases := server.leases.filter fun entry => now < entry.2.expiry }

def onDiscover (clock : Clock) (req : BootpRequest) : DhcpServer × Option Answer :=
  match server.ipFor clock req.chaddr with
  | none => (server, none)
  | some ip => (server.grant clock.granted req.chaddr ip, some (.offer ip))

def granted (clock : Clock) (req : BootpRequest) : Option Ipv4Addr :=
  let requested := req.requestedIp.or (if req.ciaddr ≠ 0 then some req.ciaddr else none)
  let entitled := (server.config.reservations.get? req.chaddr).or (server.leaseOf clock.looked req.chaddr)
  match requested, entitled with
  | none, some entitled => some entitled
  | some requested, some entitled => if requested = entitled then some entitled else none
  | some requested, none => if server.requestable clock.searched requested then some requested else none
  | none, none => none

def onRequest (clock : Clock) (req : BootpRequest) : DhcpServer × Option Answer :=
  if req.serverId.isSome ∧ req.serverId ≠ some server.config.gateway then
    -- The client chose someone else.
    ({ server with leases := server.leases.erase req.chaddr }, none)
  else
    match server.granted clock req with
    | some ip => (server.grant clock.granted req.chaddr ip, some (.ack ip))
    | none => (server, some .nak)

def onDecline (req : BootpRequest) : DhcpServer :=
  let declined := ((server.leases.get? req.chaddr).map Lease.ip).or req.requestedIp
  { server with
    leases := server.leases.erase req.chaddr
    declined := match declined with
      | some ip => ip :: server.declined
      | none => server.declined }

def serve (clock : Clock) (req : BootpRequest) : DhcpServer × Option Answer :=
  let server := server.purgeExpired clock.purged
  if req.msgType = dhcpDiscover then server.onDiscover clock req
  else if req.msgType = dhcpRequest then server.onRequest clock req
  else if req.msgType = dhcpRelease then
    ({ server with leases := server.leases.erase req.chaddr }, none)
  else if req.msgType = dhcpDecline then (server.onDecline req, none)
  else (server, none)

end DhcpServer

def opt (code : UInt8) (value : List UInt8) : List UInt8 := code :: UInt8.ofNat value.length :: value

def encodeClasslessRoutes (routes : List (Ipv4Net × Ipv4Addr)) : List UInt8 :=
  routes.flatMap fun (net, via) =>
    UInt8.ofNat net.prefixLen :: (octets net.network).take ((net.prefixLen + 7) / 8) ++ octets via

def DhcpConfig.offeredRoutes (config : DhcpConfig) : List (Ipv4Net × Ipv4Addr) :=
  if config.routes.any fun route => route.1.prefixLen = 0 then config.routes
  else config.routes ++ [(⟨0, 0, by decide⟩, config.router)]

def DhcpConfig.replyOptions (config : DhcpConfig) (msgType : UInt8) : List UInt8 :=
  opt optMsgType [msgType] ++ opt optServerId (octets config.gateway) ++
    (if msgType = dhcpNak then []
    else
      opt optLeaseTime (u32Bytes config.leaseSecs) ++ opt optSubnetMask (octets config.subnet.netmask) ++
        opt optRouter (octets config.router) ++
        (config.dnsServer.map fun dns => opt optDns (octets dns)).getD [] ++
        (config.domain.map (opt optDomain)).getD [] ++
        (if config.mtu ≠ 1500 then opt optMtu (u16Bytes config.mtu) else []) ++
        (if config.routes ≠ [] then opt optClasslessRoutes (encodeClasslessRoutes config.offeredRoutes)
        else [])) ++
    [optEnd]

def macBroadcast : MacAddr := ⟨List.replicate 6 0xff, rfl⟩

def DhcpConfig.buildReply (config : DhcpConfig) (req : BootpRequest) (answer : Answer) :
    Option (List UInt8) := do
  let (msgType, yiaddr) := match answer with
    | .offer ip => (dhcpOffer, ip)
    | .ack ip => (dhcpAck, ip)
    | .nak => (dhcpNak, 0)
  let ciaddr := if msgType = dhcpAck then req.ciaddr else 0
  let body :=
    [2, 1, 6, 0] ++ u32Bytes req.xid ++ [0, 0] ++ u16Bytes req.flags ++ octets ciaddr ++ octets yiaddr ++
      octets config.gateway ++ octets req.giaddr ++ req.chaddr.octets ++ List.replicate 10 0 ++
      List.replicate 64 0 ++ List.replicate 128 0 ++ magicCookie ++ config.replyOptions msgType
  let broadcast := msgType = dhcpNak ∨ req.flags &&& flagBroadcast ≠ 0 ∨ yiaddr = 0
  let (dstMac, dstIp) := if broadcast then (macBroadcast, BitVec.allOnes 32) else (req.chaddr, yiaddr)
  let udp ← udpBuild config.gateway dstIp dhcpServerPort dhcpClientPort body
  let ip ← ipv4Build config.gateway dstIp ipprotoUdp 64 udp (UInt16.ofNat req.xid.toNat)
  some (ethBuild dstMac config.serverMac ethertypeIpv4 ip)

def parseFrame (frame : List UInt8) : Option BootpRequest := do
  let eth ← EthView.parse frame
  if eth.ethertype ≠ ethertypeIpv4 then none
  else
    let ip ← Ipv4View.parse eth.payload
    if ip.proto ≠ ipprotoUdp then none
    else
      let udp ← UdpView.parse ip.payload
      if udp.srcPort ≠ dhcpClientPort ∨ udp.dstPort ≠ dhcpServerPort then none
      else parseBootp udp.payload

namespace DhcpServer

def handle (server : DhcpServer) (clock : Clock) (frame : List UInt8) : DhcpServer × Option (List UInt8) :=
  match parseFrame frame with
  | none => (server, none)
  | some req =>
    let (server, answer) := server.serve clock req
    (server, answer.bind fun answer => server.config.buildReply req answer)

def reconfigure (server : DhcpServer) (config : DhcpConfig) : DhcpServer := { server with config }

inductive Event where
  | frame (clock : Clock) (bytes : List UInt8)
  | reconfigure (now : Nat) (config : DhcpConfig)

def Event.start : Event → Nat
  | .frame clock _ => clock.purged
  | .reconfigure now _ => now

def Event.finish : Event → Nat
  | .frame clock _ => clock.granted
  | .reconfigure now _ => now

def step (server : DhcpServer) : Event → DhcpServer
  | .frame clock bytes => (server.handle clock bytes).1
  | .reconfigure _ config => server.reconfigure config

def run (server : DhcpServer) (events : List Event) : DhcpServer := events.foldl step server

end DhcpServer

/-! ### No address is held twice -/

open SortedMap (not_mem_empty)

variable {clock : Clock}

namespace DhcpServer

/-- An address the subnet serves and the gateway does not use. -/
def Usable (config : DhcpConfig) (ip : Ipv4Addr) : Prop := config.subnet.contains ip = true ∧ ip ≠ config.gateway

/-- Reservations are usable and belong to one client each. -/
structure WellReserved (config : DhcpConfig) : Prop where
  usable : ∀ entry ∈ config.reservations, Usable config entry.2
  distinct : ∀ left ∈ config.reservations, ∀ right ∈ config.reservations, left.2 = right.2 → left.1 = right.1

structure Exclusive (server : DhcpServer) (now : Nat) : Prop where
  reserved : WellReserved server.config
  apart : ∀ left ∈ server.leases, ∀ right ∈ server.leases, left.1 ≠ right.1 →
    now < left.2.expiry → now < right.2.expiry → left.2.ip ≠ right.2.ip
  respected : ∀ entry ∈ server.config.reservations, ∀ other ∈ server.leases, other.1 ≠ entry.1 →
    now < other.2.expiry → other.2.ip ≠ entry.2
  usable : ∀ entry ∈ server.leases, now < entry.2.expiry → Usable server.config entry.2.ip

structure Free (server : DhcpServer) (now : Nat) (mac : MacAddr) (ip : Ipv4Addr) : Prop where
  usable : Usable server.config ip
  unheld : ∀ entry ∈ server.leases, entry.1 ≠ mac → now < entry.2.expiry → entry.2.ip ≠ ip
  unreserved : ∀ entry ∈ server.config.reservations, entry.1 ≠ mac → entry.2 ≠ ip

section

variable {server : DhcpServer} {now later : Nat} {mac : MacAddr} {ip : Ipv4Addr}

theorem Exclusive.mono (exclusive : Exclusive server now) (le : now ≤ later) : Exclusive server later where
  reserved := exclusive.reserved
  apart left leftIn right rightIn differ leftValid rightValid :=
    exclusive.apart left leftIn right rightIn differ (le.trans_lt leftValid) (le.trans_lt rightValid)
  respected entry reserved other held differ valid :=
    exclusive.respected entry reserved other held differ (le.trans_lt valid)
  usable entry held valid := exclusive.usable entry held (le.trans_lt valid)

theorem Exclusive.shrink (exclusive : Exclusive server now) {fewer : DhcpServer}
    (config : fewer.config = server.config) (sub : ∀ entry ∈ fewer.leases, entry ∈ server.leases) :
    Exclusive fewer now := by
  obtain ⟨reserved, apart, respected, usable⟩ := exclusive
  rw [← config] at reserved
  refine ⟨reserved, ?_, ?_, ?_⟩
  · intro left leftIn right rightIn
    exact apart left (sub left leftIn) right (sub right rightIn)
  · intro entry reserved other held
    rw [config] at reserved
    exact respected entry reserved other (sub other held)
  intro entry held
  rw [config]
  exact usable entry (sub entry held)

theorem Free.mono (free : Free server now mac ip) (le : now ≤ later) : Free server later mac ip where
  usable := free.usable
  unheld entry held differ valid := free.unheld entry held differ (le.trans_lt valid)
  unreserved := free.unreserved

theorem leaseOf_eq_some : server.leaseOf now mac = some ip ↔
      ∃ lease, (mac, lease) ∈ server.leases ∧ now < lease.expiry ∧ lease.ip = ip := by
  simp only [leaseOf, Option.map_eq_some_iff, Option.filter_eq_some_iff, SortedMap.get?_eq_some,
    decide_eq_true_eq, and_assoc]

theorem Free.leaseOf_ne (free : Free server now mac ip) {other : MacAddr} (differ : other ≠ mac) :
    server.leaseOf now other ≠ some ip := by
  intro leased
  obtain ⟨lease, member, valid, same⟩ := leaseOf_eq_some.mp leased
  exact free.unheld _ member differ valid same

section

variable (exclusive : Exclusive server now)
include exclusive

theorem Exclusive.grant (free : Free server now mac ip) (moment : Nat) :
    Exclusive (server.grant moment mac ip) now := by
  refine ⟨exclusive.reserved, ?_, ?_, ?_⟩
  · intro left leftIn right rightIn differ leftValid rightValid
    rcases SortedMap.mem_insert.mp leftIn with rfl | ⟨leftOld, leftOther⟩ <;>
      rcases SortedMap.mem_insert.mp rightIn with rfl | ⟨rightOld, rightOther⟩
    · exact absurd rfl differ
    · exact (free.unheld right rightOld rightOther rightValid).symm
    · exact free.unheld left leftOld leftOther leftValid
    · exact exclusive.apart left leftOld right rightOld differ leftValid rightValid
  · intro entry reserved other held differ valid
    rcases SortedMap.mem_insert.mp held with rfl | ⟨old, _⟩
    · exact (free.unreserved entry reserved (Ne.symm differ)).symm
    · exact exclusive.respected entry reserved other old differ valid
  intro entry held valid
  rcases SortedMap.mem_insert.mp held with rfl | ⟨old, _⟩
  · exact free.usable
  · exact exclusive.usable entry old valid

theorem Exclusive.free_of_reserved
    (reserved : server.config.reservations.get? mac = some ip) : Free server now mac ip := by
  have member := SortedMap.get?_eq_some.mp reserved
  refine ⟨exclusive.reserved.usable _ member, ?_, ?_⟩
  · intro entry held differ valid
    exact exclusive.respected _ member entry held differ valid
  · intro entry other differ same
    exact differ (exclusive.reserved.distinct entry other _ member same)

theorem Exclusive.free_of_leased (leased : server.leaseOf now mac = some ip) : Free server now mac ip := by
  obtain ⟨lease, member, valid, rfl⟩ := leaseOf_eq_some.mp leased
  refine ⟨exclusive.usable _ member valid, ?_, ?_⟩
  · intro entry held differ otherValid
    exact exclusive.apart entry held _ member differ otherValid valid
  · intro entry reserved differ same
    exact exclusive.respected entry reserved _ member (Ne.symm differ) valid same.symm

end

theorem mem_leasedIps {entry : MacAddr × Lease} (held : entry ∈ server.leases)
    (valid : now < entry.2.expiry) : entry.2.ip ∈ server.leasedIps now :=
  mem_map_of_mem (List.mem_filter.mpr ⟨mem_map_of_mem held, decide_eq_true valid⟩)

theorem free_of_absent (usable : Usable server.config ip) (unleased : ip ∉ server.leasedIps now)
    (unreserved : ip ∉ server.config.reservations.entries.map Prod.snd) : Free server now mac ip where
  usable := usable
  unheld _ held _ valid same := unleased (same ▸ mem_leasedIps held valid)
  unreserved _ reserved _ same := unreserved (same ▸ mem_map_of_mem reserved)

theorem free_of_alloc (found : server.alloc now = some ip) : Free server now mac ip := by
  obtain ⟨untaken, contained⟩ := Ipv4Net.findHost_spec found
  simp only [taken, contains_eq_mem, Bool.not_eq_true', decide_eq_false_iff_not, mem_append,
    mem_singleton, not_or] at untaken
  obtain ⟨⟨⟨unleased, unreserved⟩, notGateway⟩, _⟩ := untaken
  exact free_of_absent ⟨contained, notGateway⟩ unleased unreserved

theorem free_of_requestable (allowed : server.requestable now ip = true) : Free server now mac ip := by
  simp only [requestable, decide_eq_true_eq] at allowed
  obtain ⟨contained, _, _, notGateway, unreserved, _, unleased⟩ := allowed
  exact free_of_absent ⟨contained, notGateway⟩ unleased unreserved

theorem Exclusive.free_of_ipFor (exclusive : Exclusive server clock.purged)
    (found : server.ipFor clock mac = some ip) : Free server clock.searched mac ip := by
  obtain ⟨looked, searched, _⟩ := clock.ordered
  rw [ipFor, Option.or_eq_some_iff] at found
  rcases found with reserved | ⟨_, found⟩
  · exact (exclusive.free_of_reserved reserved).mono (looked.trans searched)
  rw [Option.or_eq_some_iff] at found
  rcases found with leased | ⟨_, fresh⟩
  · exact ((exclusive.mono looked).free_of_leased leased).mono searched
  · exact free_of_alloc fresh

theorem Exclusive.free_of_granted {req : BootpRequest}
    (exclusive : Exclusive server clock.purged) (found : server.granted clock req = some ip) :
    Free server clock.searched req.chaddr ip := by
  obtain ⟨looked, searched, _⟩ := clock.ordered
  have entitled : ∀ ip, (server.config.reservations.get? req.chaddr).or
      (server.leaseOf clock.looked req.chaddr) = some ip → Free server clock.searched req.chaddr ip := by
    intro ip entitled
    rcases Option.or_eq_some_iff.mp entitled with reserved | ⟨_, leased⟩
    · exact (exclusive.free_of_reserved reserved).mono (looked.trans searched)
    · exact ((exclusive.mono looked).free_of_leased leased).mono searched
  simp only [granted] at found
  split at found
  · next address _ entitlement =>
    cases found
    exact entitled ip entitlement
  · next _ entitlement =>
    split at found
    · cases found
      exact entitled ip entitlement
    · cases found
  · split at found
    · next allowed =>
      cases found
      exact free_of_requestable allowed
    · cases found
  · cases found

section

variable (exclusive : Exclusive server now)
include exclusive

theorem Exclusive.purgeExpired (moment : Nat) : Exclusive (server.purgeExpired moment) now :=
  exclusive.shrink rfl fun _ held => (SortedMap.mem_filter.mp held).1

theorem Exclusive.forget (mac : MacAddr) (declined : List Ipv4Addr) :
    Exclusive { server with leases := server.leases.erase mac, declined } now :=
  exclusive.shrink rfl fun _ held => (SortedMap.mem_erase.mp held).1

theorem Exclusive.after_grant (free : Free server now mac ip) (le : now ≤ later) :
    Exclusive (server.grant later mac ip) later ∧
      ∀ other ≠ mac, (server.grant later mac ip).leaseOf later other ≠ some ip := by
  refine ⟨(exclusive.grant free later).mono le, ?_⟩
  intro other differ leased
  obtain ⟨lease, member, valid, same⟩ := leaseOf_eq_some.mp leased
  rcases SortedMap.mem_insert.mp member with equal | ⟨old, _⟩
  · exact differ (congrArg Prod.fst equal)
  · exact (free.mono le).unheld _ old differ valid same

end

section

variable (exclusive : Exclusive server clock.purged) (req : BootpRequest)
include exclusive req

theorem Exclusive.onDiscover : Exclusive (server.onDiscover clock req).1 clock.granted := by
  obtain ⟨looked, searched, granted⟩ := clock.ordered
  have atSearch := exclusive.mono (looked.trans searched)
  unfold DhcpServer.onDiscover
  split
  · exact atSearch.mono granted
  · next ip found => exact (atSearch.after_grant (exclusive.free_of_ipFor found) granted).1

theorem Exclusive.onRequest : Exclusive (server.onRequest clock req).1 clock.granted ∧
      ∀ ip, (server.onRequest clock req).2 = some (.ack ip) →
        Usable server.config ip ∧
          ∀ other ≠ req.chaddr, (server.onRequest clock req).1.leaseOf clock.granted other ≠ some ip := by
  obtain ⟨looked, searched, granted⟩ := clock.ordered
  have atSearch := exclusive.mono (looked.trans searched)
  unfold DhcpServer.onRequest
  split
  · exact ⟨(atSearch.mono granted).forget req.chaddr server.declined, fun _ acked => nomatch acked⟩
  split
  · next ip found =>
    have free := exclusive.free_of_granted found
    obtain ⟨after, alone⟩ := atSearch.after_grant free granted
    refine ⟨after, ?_⟩
    intro _ acked
    cases acked
    exact ⟨free.usable, alone⟩
  · exact ⟨atSearch.mono granted, fun _ acked => nomatch acked⟩

end

theorem Exclusive.onDecline (exclusive : Exclusive server now) (req : BootpRequest) :
    Exclusive (server.onDecline req) now :=
  exclusive.forget req.chaddr _

theorem Exclusive.serve (exclusive : Exclusive server clock.purged) (req : BootpRequest) :
    Exclusive (server.serve clock req).1 clock.granted ∧
      ∀ ip, (server.serve clock req).2 = some (.ack ip) →
        Usable server.config ip ∧
          ∀ other ≠ req.chaddr, (server.serve clock req).1.leaseOf clock.granted other ≠ some ip := by
  obtain ⟨looked, searched, granted⟩ := clock.ordered
  have purged := exclusive.purgeExpired clock.purged
  have atGrant := purged.mono (looked.trans (searched.trans granted))
  simp only [DhcpServer.serve]
  split
  · refine ⟨purged.onDiscover req, ?_⟩
    intro ip acked
    unfold DhcpServer.onDiscover at acked
    split at acked <;> cases acked
  split
  · exact purged.onRequest req
  split
  · exact ⟨atGrant.forget req.chaddr _, fun _ acked => nomatch acked⟩
  split
  · exact ⟨atGrant.onDecline req, fun _ acked => nomatch acked⟩
  · exact ⟨atGrant, fun _ acked => nomatch acked⟩

def acked (server : DhcpServer) (clock : Clock) (frame : List UInt8) : Option (MacAddr × Ipv4Addr) :=
  match parseFrame frame with
  | none => none
  | some req =>
    match (server.serve clock req).2 with
    | some (.ack ip) => some (req.chaddr, ip)
    | _ => none

theorem Exclusive.frame (exclusive : Exclusive server clock.purged) (bytes : List UInt8) :
    Exclusive (server.step (.frame clock bytes)) clock.granted ∧
      ∀ mac ip, server.acked clock bytes = some (mac, ip) →
        Usable server.config ip ∧
          ∀ other ≠ mac, (server.step (.frame clock bytes)).leaseOf clock.granted other ≠ some ip := by
  obtain ⟨looked, searched, granted⟩ := clock.ordered
  simp only [step, handle, acked]
  cases parseFrame bytes with
  | none => exact ⟨exclusive.mono (looked.trans (searched.trans granted)), fun _ _ acked => nomatch acked⟩
  | some req =>
    obtain ⟨after, alone⟩ := exclusive.serve req
    refine ⟨after, ?_⟩
    intro mac ip acked
    dsimp only at acked
    split at acked
    · next answered =>
      cases acked
      exact alone ip answered
    · cases acked

end

structure Admissible (server : DhcpServer) (now : Nat) (config : DhcpConfig) : Prop where
  reserved : WellReserved config
  unheld : ∀ entry ∈ config.reservations, ∀ other ∈ server.leases, other.1 ≠ entry.1 →
    now < other.2.expiry → other.2.ip ≠ entry.2
  served : ∀ entry ∈ server.leases, now < entry.2.expiry → Usable config entry.2.ip

theorem Exclusive.reconfigure {server : DhcpServer} {now : Nat} {config : DhcpConfig}
    (exclusive : Exclusive server now) (admissible : Admissible server now config) :
    Exclusive (server.reconfigure config) now where
  reserved := admissible.reserved
  apart := exclusive.apart
  respected := admissible.unheld
  usable := admissible.served

/-- Time does not run backwards, and every configuration is admissible when it
is given. -/
def Admitted : DhcpServer → Nat → List Event → Prop
  | _, _, [] => True
  | server, now, event :: events =>
    now ≤ event.start ∧
      (match event with
        | .frame _ _ => True
        | .reconfigure now config => Admissible server now config) ∧
      Admitted (server.step event) event.finish events

theorem Exclusive.run {server : DhcpServer} {events : List Event} {now later : Nat}
    (exclusive : Exclusive server now) (admitted : Admitted server now events) (le : now ≤ later)
    (finished : ∀ event ∈ events, event.finish ≤ later) : Exclusive (server.run events) later := by
  induction events generalizing server now with
  | nil => exact exclusive.mono le
  | cons event events ih =>
    obtain ⟨ordered, admissible, rest⟩ := admitted
    have started := exclusive.mono ordered
    have stepped : Exclusive (server.step event) event.finish := by
      cases event with
      | frame clock bytes => exact (started.frame bytes).1
      | reconfigure moment config => exact started.reconfigure admissible
    exact ih stepped rest (finished event mem_cons_self)
      fun other member => finished other (mem_cons_of_mem event member)

theorem Exclusive.new {config : DhcpConfig} (reserved : WellReserved config) : Exclusive (new config) 0 where
  reserved := reserved
  apart _ held := absurd held not_mem_empty
  respected _ _ _ held := absurd held not_mem_empty
  usable _ held := absurd held not_mem_empty

/-- Once every event is over no address is leased twice, and what is
acknowledged next lies in the subnet, is not the gateway's and is not leased to
another client. -/
theorem leases_exclusive (config : DhcpConfig) (events : List Event) (reserved : WellReserved config)
    (admitted : Admitted (new config) 0 events) :
    (∀ now, (∀ event ∈ events, event.finish ≤ now) → ∀ left right, left ≠ right → ∀ ip,
      ((new config).run events).leaseOf now left = some ip → ((new config).run events).leaseOf now right ≠ some ip) ∧
    (∀ clock bytes mac ip, (∀ event ∈ events, event.finish ≤ clock.purged) →
      ((new config).run events).acked clock bytes = some (mac, ip) →
        Usable ((new config).run events).config ip ∧
          ∀ other ≠ mac,
            (((new config).run events).step (.frame clock bytes)).leaseOf clock.granted other ≠ some ip) := by
  have exclusive : ∀ now, (∀ event ∈ events, event.finish ≤ now) →
      Exclusive ((new config).run events) now := fun now finished =>
    (Exclusive.new reserved).run admitted (Nat.zero_le now) finished
  constructor
  · intro now finished left right differ ip leased
    exact ((exclusive now finished).free_of_leased leased).leaseOf_ne differ.symm
  · intro clock bytes mac ip finished
    exact ((exclusive clock.purged finished).frame bytes).2 mac ip

def clientFrame (mac : MacAddr) (msgType : UInt8) (extra : List UInt8) : List UInt8 :=
  let body := [1, 1, 6, 0] ++ u32Bytes 0x12345678 ++ List.replicate 20 0 ++ mac.octets ++
    List.replicate 202 0 ++ magicCookie ++ opt optMsgType [msgType] ++ extra ++ [optEnd]
  let udp := udpBuild 0 (BitVec.allOnes 32) dhcpClientPort dhcpServerPort body
  let ip := udp.bind fun udp => ipv4Build 0 (BitVec.allOnes 32) ipprotoUdp 64 udp 1
  ethBuild macBroadcast mac ethertypeIpv4 (ip.getD [])

def discoverFrame (mac : MacAddr) : List UInt8 := clientFrame mac dhcpDiscover []

def requestFrame (mac : MacAddr) (ip : Ipv4Addr) : List UInt8 :=
  clientFrame mac dhcpRequest (opt optRequestedIp (octets ip))

def firstClient : MacAddr := ⟨[0x52, 0x54, 0, 0, 0, 1], rfl⟩
def secondClient : MacAddr := ⟨[0x52, 0x54, 0, 0, 0, 2], rfl⟩

def segment : DhcpConfig := .new ⟨0x0AD50100, 24, by decide⟩ 0x0AD50101 ⟨[0x52, 0x54, 0, 0, 0, 0xff], rfl⟩

def segmentReserving (ip : Ipv4Addr) : DhcpConfig :=
  { segment with reservations := SortedMap.empty.insert secondClient ip }

def moment (now : Nat) : Clock := ⟨now, now, now, now, le_rfl, le_rfl, le_rfl⟩

/-- The first client takes an address of the pool, then `ip` is reserved for
the second. -/
def reserving (ip : Ipv4Addr) : List Event :=
  [.frame (moment 1) (discoverFrame firstClient), .reconfigure 2 (segmentReserving ip)]

theorem wellReserved_segment : WellReserved segment :=
  ⟨fun _ reserved => absurd reserved not_mem_empty, fun _ reserved => absurd reserved not_mem_empty⟩

theorem wellReserved_segmentReserving {ip : Ipv4Addr} (usable : Usable segment ip) :
    WellReserved (segmentReserving ip) := by
  have only : ∀ entry ∈ (segmentReserving ip).reservations, entry = (secondClient, ip) := by
    intro entry reserved
    simpa [segmentReserving] using reserved
  constructor
  · intro entry reserved
    rw [only entry reserved]
    exact usable
  · intro left leftIn right rightIn _
    rw [only left leftIn, only right rightIn]

/-- Another address than the one the pool has given out. -/
theorem leases_exclusive_reserving :
    ((new segment).run (reserving 0x0AD50109)).leaseOf 3 firstClient = some 0x0AD50102 ∧
      ((new segment).run (reserving 0x0AD50109)).leaseOf 3 secondClient ≠ some 0x0AD50102 := by
  have held : ((new segment).run (reserving 0x0AD50109)).leaseOf 3 firstClient = some 0x0AD50102 := by
    decide +kernel
  have leased : ((new segment).step (.frame (moment 1) (discoverFrame firstClient))).leases.entries =
      [(firstClient, ⟨0x0AD50102, 3600001⟩)] := by
    decide +kernel
  have only : ∀ entry ∈ ((new segment).step (.frame (moment 1) (discoverFrame firstClient))).leases,
      entry = (firstClient, ⟨0x0AD50102, 3600001⟩) := by
    intro entry member
    rwa [SortedMap.mem_def, leased, mem_singleton] at member
  have admissible : Admissible ((new segment).step (.frame (moment 1) (discoverFrame firstClient))) 2
      (segmentReserving 0x0AD50109) := by
    refine ⟨wellReserved_segmentReserving ⟨by decide, by decide⟩, ?_, ?_⟩
    · intro entry reserved other member _ _
      have shape : entry = (secondClient, 0x0AD50109) := by simpa [segmentReserving] using reserved
      rw [only other member, shape]
      decide
    intro entry member _
    rw [only entry member]
    exact ⟨by decide, by decide⟩
  have finished : ∀ event ∈ reserving 0x0AD50109, event.finish ≤ 3 := by
    simp [reserving, Event.finish, moment]
  exact ⟨held, (leases_exclusive segment (reserving 0x0AD50109) wellReserved_segment
    ⟨by decide, trivial, by decide, admissible, trivial⟩).1 3 finished firstClient secondClient (by decide) _
    held⟩

/-- A reservation of the address the first client holds: the second client is
acknowledged it as well. -/
theorem leases_exclusive_fails_for_held_reservation :
    ¬∀ (config : DhcpConfig) (events : List Event), WellReserved config →
      (events.Pairwise fun earlier later => earlier.finish ≤ later.start) →
      (∀ now config, .reconfigure now config ∈ events → WellReserved config) →
      ∀ now, (∀ event ∈ events, event.finish ≤ now) → ∀ left right, left ≠ right → ∀ ip,
        ((new config).run events).leaseOf now left = some ip →
          ((new config).run events).leaseOf now right ≠ some ip := by
  intro claim
  refine claim segment
    (reserving 0x0AD50102 ++ [.frame (moment 3) (requestFrame secondClient 0x0AD50102)])
    wellReserved_segment (by simp [reserving, Event.start, Event.finish, moment]) ?_ 4 ?_
    firstClient secondClient (by decide) 0x0AD50102 (by decide +kernel) (by decide +kernel)
  · intro now config given
    obtain ⟨_, rfl⟩ : now = 2 ∧ config = segmentReserving 0x0AD50102 := by simpa [reserving] using given
    exact wellReserved_segmentReserving ⟨by decide, by decide⟩
  · simp [reserving, Event.finish, moment]

end DhcpServer

/-! ## A client reads the options back exactly when the domain and the routes fit their length bytes -/

variable {answer : Answer}

abbrev SentRoute := Ipv4Addr × Nat × Ipv4Addr

/-- The values of a reply; an option that is not there has its default. -/
structure ReplyValues where
  msgType : UInt8
  serverId : Ipv4Addr
  leaseSecs : Option (BitVec 32)
  subnetMask : Option Ipv4Addr
  router : Option Ipv4Addr
  dns : Option Ipv4Addr
  domain : Option (List UInt8)
  mtu : UInt16
  routes : List SentRoute

namespace ReplyValues

def decodeClasslessRoutes : Nat → List UInt8 → Option (List SentRoute)
  | _, [] => some []
  | 0, _ :: _ => none
  | fuel + 1, plen :: rest =>
    let significant := (plen.toNat + 7) / 8
    if 32 < plen.toNat ∨ rest.length < significant + 4 then none
    else
      let network := ipv4From (rest.take significant ++ List.replicate (4 - significant) 0)
      let via := ipv4From ((rest.drop significant).take 4)
      (decodeClasslessRoutes fuel (rest.drop (significant + 4))).map ((network, plen.toNat, via) :: ·)

def ifPresent {α : Type} (read : List UInt8 → Option α) : Option (List UInt8) → Option (Option α)
  | none => some none
  | some value => (read value).map some

def address (value : List UInt8) : Option Ipv4Addr := if value.length = 4 then some (ipv4From value) else none

def ofOptions (options : List (UInt8 × List UInt8)) : Option ReplyValues := do
  let msgType ← (← options.lookup optMsgType).head?
  let serverId ← address (← options.lookup optServerId)
  let leaseSecs ← ifPresent address (options.lookup optLeaseTime)
  let subnetMask ← ifPresent address (options.lookup optSubnetMask)
  let router ← ifPresent address (options.lookup optRouter)
  let dns ← ifPresent address (options.lookup optDns)
  let mtu ← ifPresent (fun value => if value.length = 2 then some (u16At value 0) else none) (options.lookup optMtu)
  let routes ← ifPresent (fun value => decodeClasslessRoutes value.length value) (options.lookup optClasslessRoutes)
  some
    { msgType
      serverId
      leaseSecs
      subnetMask
      router
      dns
      domain := options.lookup optDomain
      mtu := mtu.getD 1500
      routes := routes.getD [] }

def decode (area : List UInt8) : Option ReplyValues := (Tlv.decode optEnd area.length area).bind ofOptions

end ReplyValues

/-- The options of a reply frame follow the headers and the fixed part. -/
def optionsArea (frame : List UInt8) : List UInt8 :=
  frame.drop (ethHeaderLen + ipv4MinHeaderLen + udpHeaderLen + bootpMinLen)

def Answer.msgType : Answer → UInt8
  | .offer _ => dhcpOffer
  | .ack _ => dhcpAck
  | .nak => dhcpNak

namespace DhcpConfig

def sentRoute (route : Ipv4Net × Ipv4Addr) : SentRoute := (route.1.network, route.1.prefixLen, route.2)

variable (config : DhcpConfig)

def configured (answer : Answer) : ReplyValues :=
  if answer = .nak then
    { msgType := dhcpNak
      serverId := config.gateway
      leaseSecs := none
      subnetMask := none
      router := none
      dns := none
      domain := none
      mtu := 1500
      routes := [] }
  else
    { msgType := answer.msgType
      serverId := config.gateway
      leaseSecs := some config.leaseSecs
      subnetMask := some config.subnet.netmask
      router := some config.router
      dns := config.dnsServer
      domain := config.domain
      mtu := config.mtu
      routes := if config.routes = [] then [] else config.offeredRoutes.map sentRoute }

/-- The domain and the routes fit the length byte of their options. -/
def Fits : Prop :=
  (∀ domain, config.domain = some domain → domain.length ≤ 255) ∧
    (config.routes ≠ [] → (encodeClasslessRoutes config.offeredRoutes).length ≤ 255)

def options (msgType : UInt8) : List (UInt8 × List UInt8) :=
  (optMsgType, [msgType]) :: (optServerId, octets config.gateway) ::
    if msgType = dhcpNak then []
    else
      (optLeaseTime, u32Bytes config.leaseSecs) :: (optSubnetMask, octets config.subnet.netmask) ::
        (optRouter, octets config.router) ::
          ((config.dnsServer.map fun dns => (optDns, octets dns)).toList ++
            ((config.domain.map fun domain => (optDomain, domain)).toList ++
              ((if config.mtu ≠ 1500 then [(optMtu, u16Bytes config.mtu)] else []) ++
                if config.routes ≠ [] then [(optClasslessRoutes, encodeClasslessRoutes config.offeredRoutes)] else [])))

theorem replyOptions_eq (msgType : UInt8) : config.replyOptions msgType =
    (config.options msgType).flatMap (fun item => Tlv.triple item.1 item.2) ++ [optEnd] := by
  unfold replyOptions options
  by_cases nak : msgType = dhcpNak
  · simp [nak, opt, Tlv.triple]
  · cases config.dnsServer <;> cases config.domain <;> by_cases mtu : config.mtu = 1500 <;>
      by_cases routes : config.routes = [] <;> simp [nak, mtu, routes, opt, Tlv.triple]

end DhcpConfig

section

open ReplyValues DhcpConfig

theorem dvd_network (net : Ipv4Net) : 2 ^ (32 - net.prefixLen) ∣ net.network.toNat := by
  apply Nat.dvd_of_mod_eq_zero
  apply Nat.eq_of_testBit_eq
  intro bit
  rw [Nat.testBit_mod_two_pow, BitVec.testBit_toNat, Nat.zero_testBit]
  by_cases low : bit < 32 - net.prefixLen
  · have width : bit < 32 := by omega
    have inside : net.prefixLen + bit < 32 := by omega
    rw [Ipv4Net.network, Ipv4Net.hostmask, BitVec.getLsbD_and, BitVec.getLsbD_not, BitVec.getLsbD_ushiftRight,
      BitVec.getLsbD_allOnes]
    simp [width, inside]
  · simp [low]

theorem network_octets (net : Ipv4Net) : ipv4From ((octets net.network).take ((net.prefixLen + 7) / 8) ++
      replicate (4 - (net.prefixLen + 7) / 8) 0) = net.network := by
  have bounded := net.bounded
  generalize count : (net.prefixLen + 7) / 8 = significant
  have small : significant ≤ 4 := by omega
  have divides : 256 ^ (4 - significant) ∣ net.network.toNat := by
    have bytes : 256 ^ (4 - significant) = 2 ^ (8 * (4 - significant)) := by rw [Nat.pow_mul]
    rw [bytes]
    exact (Nat.pow_dvd_pow 2 (by omega)).trans (dvd_network net)
  have parts := toBigEndian_add significant (4 - significant) net.network.toNat
  rw [Nat.add_sub_of_le small, toBigEndian_of_dvd divides] at parts
  have kept : (octets net.network).take significant = toBigEndian significant (net.network.toNat / 256 ^ (4 - significant)) := by
    rw [octets, parts, take_left' (length_toBigEndian ..)]
  rw [kept, ← parts]
  exact ipv4From_octets net.network

theorem decodeClasslessRoutes_encode (routes : List (Ipv4Net × Ipv4Addr)) {fuel : Nat} (enough : routes.length ≤ fuel) :
    decodeClasslessRoutes fuel (encodeClasslessRoutes routes) = some (routes.map sentRoute) := by
  induction routes generalizing fuel with
  | nil =>
    unfold encodeClasslessRoutes decodeClasslessRoutes
    rfl
  | cons route routes ih =>
    obtain ⟨net, via⟩ := route
    obtain ⟨fuel, rfl⟩ : ∃ rest, fuel = rest + 1 := ⟨fuel - 1, by simp at enough; omega⟩
    have rest := @ih fuel (by simpa using enough)
    have bounded := net.bounded
    have plen : (UInt8.ofNat net.prefixLen).toNat = net.prefixLen := by
      rw [UInt8.toNat_ofNat']
      omega
    have size : ((octets net.network).take ((net.prefixLen + 7) / 8)).length = (net.prefixLen + 7) / 8 := by
      simp only [octets, length_take, length_toBigEndian]
      omega
    have viaSize : (octets via).length = 4 := length_toBigEndian ..
    have split : encodeClasslessRoutes ((net, via) :: routes) = UInt8.ofNat net.prefixLen ::
        ((octets net.network).take ((net.prefixLen + 7) / 8) ++ (octets via ++ encodeClasslessRoutes routes)) := by
      simp [encodeClasslessRoutes]
    have long : ¬ (32 < net.prefixLen ∨ ((octets net.network).take ((net.prefixLen + 7) / 8) ++
        (octets via ++ encodeClasslessRoutes routes)).length < (net.prefixLen + 7) / 8 + 4) := by
      rw [length_append, length_append, size, viaSize]
      omega
    rw [split, decodeClasslessRoutes]
    dsimp only
    rw [plen, if_neg long, take_left' size, drop_left' size, take_left' viaSize, ← drop_drop,
      drop_left' size, drop_left' viaSize, rest, network_octets, ipv4From_octets]
    rfl

def sentLength (route : SentRoute) : Nat := 5 + (route.2.1 + 7) / 8

theorem length_of_decodeClasslessRoutes {fuel : Nat} {value : List UInt8} {routes : List SentRoute}
    (decoded : decodeClasslessRoutes fuel value = some routes) : value.length = (routes.map sentLength).sum := by
  fun_induction decodeClasslessRoutes fuel value generalizing routes with
  | case1 =>
    cases decoded
    rfl
  | case2 => cases decoded
  | case3 => cases decoded
  | case4 fuel plen rest significant long _ _ =>
    rename_i ih
    obtain ⟨more, found, rfl⟩ := Option.map_eq_some_iff.mp decoded
    have later := ih found
    rw [length_drop] at later
    rw [map_cons, sum_cons, ← later]
    simp only [length_cons, sentLength]
    omega

theorem length_encodeClasslessRoutes (routes : List (Ipv4Net × Ipv4Addr)) :
    (encodeClasslessRoutes routes).length = ((routes.map sentRoute).map sentLength).sum := by
  induction routes with
  | nil => rfl
  | cons route routes ih =>
    have bounded := route.1.bounded
    have split : encodeClasslessRoutes (route :: routes) = (UInt8.ofNat route.1.prefixLen ::
        (octets route.1.network).take ((route.1.prefixLen + 7) / 8) ++ octets route.2) ++ encodeClasslessRoutes routes := rfl
    rw [split, length_append, ih, map_cons, map_cons, sum_cons]
    simp only [length_append, length_cons, length_take, octets, length_toBigEndian, sentLength, sentRoute]
    omega

theorem length_le_encodeClasslessRoutes (routes : List (Ipv4Net × Ipv4Addr)) :
    routes.length ≤ (encodeClasslessRoutes routes).length := by
  rw [length_encodeClasslessRoutes]
  induction routes with
  | nil => exact le_rfl
  | cons route routes ih =>
    simp only [map_cons, sum_cons, length_cons, sentLength]
    omega

end

open ReplyValues

variable {config : DhcpConfig}

theorem address_octets (addr : Ipv4Addr) : address (octets addr) = some addr := by
  have size : (octets addr).length = 4 := length_toBigEndian ..
  rw [address, if_pos size, ipv4From_octets]

theorem address_u32Bytes (word : BitVec 32) : address (u32Bytes word) = some word := address_octets word

theorem u16At_u16Bytes (word : UInt16) : u16At (u16Bytes word) 0 = word := by
  have bytes : window (u16Bytes word) 0 2 = u16Bytes word := take_of_length_le (length_toBigEndian ..).le
  rw [u16At, bytes, u16Bytes, bigEndian_toBigEndian word.toNat_lt, UInt16.ofNat_toNat]

theorem offeredRoutes_ne_nil (routes : config.routes ≠ []) : config.offeredRoutes ≠ [] := by
  unfold DhcpConfig.offeredRoutes
  split
  · exact routes
  · simp

theorem msgType_ne_nak (granted : answer ≠ .nak) : answer.msgType ≠ dhcpNak := by
  cases answer with
  | offer _ => exact (by decide : dhcpOffer ≠ dhcpNak)
  | ack _ => exact (by decide : dhcpAck ≠ dhcpNak)
  | nak => exact absurd rfl granted

theorem ofOptions_options (config : DhcpConfig) (answer : Answer) :
    ofOptions (config.options answer.msgType) = some (config.configured answer) := by
  have routesRead : decodeClasslessRoutes (encodeClasslessRoutes config.offeredRoutes).length
      (encodeClasslessRoutes config.offeredRoutes) = some (config.offeredRoutes.map DhcpConfig.sentRoute) :=
    decodeClasslessRoutes_encode _ (length_le_encodeClasslessRoutes _)
  have mtuSize : (u16Bytes config.mtu).length = 2 := length_toBigEndian ..
  unfold ofOptions DhcpConfig.options DhcpConfig.configured
  by_cases nak : answer = .nak
  · subst nak
    simp [Answer.msgType, address_octets, ifPresent, List.lookup, optMsgType, optServerId, optLeaseTime, optSubnetMask,
      optRouter, optDns, optDomain, optMtu, optClasslessRoutes, dhcpNak]
  have granted := msgType_ne_nak nak
  cases dns : config.dnsServer <;> cases domain : config.domain <;> by_cases mtu : config.mtu = 1500 <;>
    by_cases routes : config.routes = [] <;>
    simp [granted, nak, mtu, routes, address_octets, address_u32Bytes, ifPresent, List.lookup, optMsgType, optServerId,
      optLeaseTime, optSubnetMask, optRouter, optDns, optDomain, optMtu, optClasslessRoutes, mtuSize, u16At_u16Bytes,
      routesRead]

theorem parts_of_ofOptions {options : List (UInt8 × List UInt8)} {values : ReplyValues}
    (read : ofOptions options = some values) : values.domain = options.lookup optDomain ∧
      ∃ routes, ifPresent (fun value => decodeClasslessRoutes value.length value) (options.lookup optClasslessRoutes) =
        some routes ∧ values.routes = routes.getD [] := by
  simp only [ofOptions, Option.bind_eq_bind, Option.bind_eq_some_iff, Option.some.injEq] at read
  obtain ⟨_, _, _, _, _, _, _, _, _, _, _, _, _, _, _, _, _, _, routes, found, rfl⟩ := read
  exact ⟨rfl, routes, found, rfl⟩

theorem fits_of_ofOptions {options : List (UInt8 × List UInt8)} (granted : answer ≠ .nak)
    (short : ∀ item ∈ options, item.2.length ≤ 255) (read : ofOptions options = some (config.configured answer)) :
    config.Fits := by
  have bounded {tag : UInt8} {value : List UInt8} (found : options.lookup tag = some value) : value.length ≤ 255 := by
    obtain ⟨before, after, rfl, -⟩ := lookup_eq_some_iff.mp found
    exact short (tag, value) (by simp)
  obtain ⟨domain, routes⟩ := parts_of_ofOptions read
  rw [DhcpConfig.configured, if_neg granted] at domain routes
  constructor
  · intro value configured
    exact bounded (domain.symm.trans configured)
  intro some
  obtain ⟨found, decoded, same⟩ := routes
  dsimp only at same
  rw [if_neg some] at same
  cases value : options.lookup optClasslessRoutes with
  | none =>
    rw [value] at decoded
    cases decoded
    exact absurd same (by simpa using offeredRoutes_ne_nil some)
  | some value' =>
    rw [value] at decoded
    obtain ⟨sent, read, rfl⟩ := Option.map_eq_some_iff.mp decoded
    have length := length_of_decodeClasslessRoutes read
    have same : config.offeredRoutes.map DhcpConfig.sentRoute = sent := same
    rw [length_encodeClasslessRoutes, same, ← length]
    exact bounded value

theorem drop_udpBuild {src dst : Ipv4Addr} {srcPort dstPort : UInt16} {payload udp : List UInt8}
    (built : udpBuild src dst srcPort dstPort payload = some udp) : udp.drop udpHeaderLen = payload := by
  unfold udpBuild at built
  split at built
  · obtain ⟨csum, -, same⟩ := Option.bind_eq_some_iff.mp built
    cases same
    generalize word : (if csum = 0 then 0xFFFF else csum) = sent
    have size : (u16Bytes sent).length = 2 := length_toBigEndian ..
    generalize header : u16Bytes srcPort ++ u16Bytes dstPort ++ toBigEndian 2 (udpHeaderLen + payload.length) ++ [0, 0] = head
    have headSize : head.length = 8 := by
      rw [← header]
      simp [u16Bytes]
    have patched := @drop_overwrite_after (head ++ payload) (u16Bytes sent) 6 8 (by omega)
      (by rw [length_append]; omega)
    exact patched.trans (drop_left' headSize)
  · cases built

theorem drop_ipv4Build {src dst : Ipv4Addr} {proto ttl : UInt8} {payload packet : List UInt8} {id : UInt16}
    (built : ipv4Build src dst proto ttl payload id = some packet) : packet.drop ipv4MinHeaderLen = payload := by
  unfold ipv4Build at built
  split at built
  · cases built
    refine drop_left' (length_overwrite_of_eq ?_ ?_)
    · simp [u16Bytes, octets, ipv4MinHeaderLen]
    · simp [u16Bytes, ipv4MinHeaderLen]
  · cases built

theorem drop_ethBuild (dst src : MacAddr) (ethertype : UInt16) (payload : List UInt8) :
    (ethBuild dst src ethertype payload).drop ethHeaderLen = payload := by
  refine drop_left' ?_
  simp [dst.sized, src.sized, u16Bytes, ethHeaderLen]

theorem length_fixed (xid : BitVec 32) (flags : UInt16) (ciaddr yiaddr siaddr giaddr : Ipv4Addr) (chaddr : MacAddr) :
    ([2, 1, 6, 0] ++ u32Bytes xid ++ [0, 0] ++ u16Bytes flags ++ octets ciaddr ++ octets yiaddr ++ octets siaddr ++
      octets giaddr ++ chaddr.octets ++ replicate 10 0 ++ replicate 64 0 ++ replicate 128 0 ++
      magicCookie).length = bootpMinLen := by
  simp only [length_append, length_cons, length_nil, length_replicate, u32Bytes, u16Bytes, octets,
    length_toBigEndian, chaddr.sized, magicCookie, bootpMinLen]

section

variable {req : BootpRequest} {frame : List UInt8} (built : config.buildReply req answer = some frame)
include built

theorem parts_of_buildReply : ∃ fixed dstMac dstIp udp ip id,
      fixed.length = bootpMinLen ∧
        udpBuild config.gateway dstIp dhcpServerPort dhcpClientPort (fixed ++ config.replyOptions answer.msgType) = some udp ∧
        ipv4Build config.gateway dstIp ipprotoUdp 64 udp id = some ip ∧
        frame = ethBuild dstMac config.serverMac ethertypeIpv4 ip := by
  cases answer
  all_goals
    simp only [DhcpConfig.buildReply, Option.bind_eq_bind, Option.bind_eq_some_iff, Option.some.injEq] at built
    obtain ⟨udp, udpBuilt, ip, ipBuilt, rfl⟩ := built
    exact ⟨_, _, _, udp, ip, _, length_fixed .., udpBuilt, ipBuilt, rfl⟩

theorem optionsArea_buildReply : optionsArea frame = config.replyOptions answer.msgType := by
  obtain ⟨fixed, dstMac, dstIp, udp, ip, id, size, udpBuilt, ipBuilt, rfl⟩ := parts_of_buildReply built
  rw [optionsArea, ← drop_drop, ← drop_drop, ← drop_drop, drop_ethBuild, drop_ipv4Build ipBuilt,
    drop_udpBuild udpBuilt, drop_left' size]

end

theorem options_short (fits : answer = .nak ∨ config.Fits) :
    ∀ item ∈ config.options answer.msgType, item.1 ≠ optEnd ∧ item.2.length ≤ 255 := by
  have four (addr : Ipv4Addr) : (octets addr).length ≤ 255 := (length_toBigEndian ..).trans_le (by decide)
  have half (mtu : UInt16) : (u16Bytes mtu).length ≤ 255 := (length_toBigEndian ..).trans_le (by decide)
  have plain {tag : UInt8} {value : List UInt8} (tagged : tag ≠ optEnd) (short : value.length ≤ 255) :
      (tag, value).1 ≠ optEnd ∧ (tag, value).2.length ≤ 255 := ⟨tagged, short⟩
  unfold DhcpConfig.options
  refine forall_mem_cons.mpr ⟨plain (by decide) (by decide : 1 ≤ 255), forall_mem_cons.mpr ⟨plain (by decide) (four _), ?_⟩⟩
  split
  · simp
  rename_i granted
  have granted : answer ≠ .nak := fun nak => granted (nak ▸ rfl)
  obtain ⟨domains, routes⟩ := fits.resolve_left granted
  refine forall_mem_cons.mpr ⟨plain (by decide) (four _), forall_mem_cons.mpr ⟨plain (by decide) (four _),
    forall_mem_cons.mpr ⟨plain (by decide) (four _), forall_mem_append.mpr ⟨?_, forall_mem_append.mpr ⟨?_,
      forall_mem_append.mpr ⟨?_, ?_⟩⟩⟩⟩⟩⟩
  · cases config.dnsServer with
    | none => simp
    | some dns => exact forall_mem_singleton.mpr (plain (by decide) (four dns))
  · cases domain : config.domain with
    | none => simp
    | some value => exact forall_mem_singleton.mpr (plain (by decide) (domains value domain))
  · split
    · exact forall_mem_singleton.mpr (plain (by decide) (half _))
    · simp
  · split
    · next some => exact forall_mem_singleton.mpr (plain (by decide) (routes some))
    · simp

/-- The options area of a reply reads back as what is configured, exactly when
the domain and the routes fit their options. -/
theorem decode_reply_iff (config : DhcpConfig) (req : BootpRequest) (answer : Answer) (frame : List UInt8)
    (built : config.buildReply req answer = some frame) :
    decode (optionsArea frame) = some (config.configured answer) ↔ answer = .nak ∨ config.Fits := by
  rw [optionsArea_buildReply built, decode]
  constructor
  · intro decoded
    obtain ⟨options, found, read⟩ := Option.bind_eq_some_iff.mp decoded
    by_cases granted : answer = .nak
    · exact .inl granted
    · exact .inr (fits_of_ofOptions granted (Tlv.length_le_of_decode found) read)
  intro fits
  have short := options_short fits
  have enough : (config.options answer.msgType).length < (config.replyOptions answer.msgType).length := by
    rw [DhcpConfig.replyOptions_eq, length_append]
    exact Nat.lt_succ_of_le (Tlv.length_le_triples _)
  rw [DhcpConfig.replyOptions_eq] at enough ⊢
  rw [Tlv.decode_triples short enough]
  exact ofOptions_options config answer

/-- A segment whose gateway has a number of routes to subnets of 256
addresses. -/
def routedConfig (routes : Nat) : DhcpConfig :=
  { DhcpConfig.new ⟨0x0a000000, 24, by decide⟩ 0x0a000001 ⟨[2, 0, 0, 0, 0, 1], rfl⟩ with
    routes := (List.range routes).map fun index => (⟨BitVec.ofNat 32 (0x0a010000 + 256 * index), 24, by decide⟩, 0x0a000001) }

def someRequest : BootpRequest where
  xid := 7
  flags := 0
  ciaddr := 0
  giaddr := 0
  chaddr := ⟨[2, 0, 0, 0, 0, 2], rfl⟩
  msgType := dhcpRequest
  requestedIp := none
  serverId := none

theorem isSome_buildReply : ((routedConfig 1).buildReply someRequest (.ack 0x0a000002)).isSome = true ∧
    ((routedConfig 32).buildReply someRequest (.ack 0x0a000002)).isSome = true := by
  decide +kernel

theorem one_route_read_back : ∃ frame, (routedConfig 1).buildReply someRequest (.ack 0x0a000002) = some frame ∧
    decode (optionsArea frame) = some ((routedConfig 1).configured (.ack 0x0a000002)) := by
  obtain ⟨frame, built⟩ := Option.isSome_iff_exists.mp isSome_buildReply.1
  have fits : (routedConfig 1).Fits := ⟨fun _ domain => (nomatch domain), fun _ => by decide +kernel⟩
  exact ⟨frame, built, (decode_reply_iff (routedConfig 1) someRequest _ frame built).mpr (.inr fits)⟩

/-- Thirty-two routes and the default one take 261 bytes. -/
theorem many_routes_garbled : ∃ frame, (routedConfig 32).buildReply someRequest (.ack 0x0a000002) = some frame ∧
    decode (optionsArea frame) ≠ some ((routedConfig 32).configured (.ack 0x0a000002)) := by
  obtain ⟨frame, built⟩ := Option.isSome_iff_exists.mp isSome_buildReply.2
  refine ⟨frame, built, fun decoded => ?_⟩
  obtain ⟨options, found, read⟩ := Option.bind_eq_some_iff.mp decoded
  have fits := fits_of_ofOptions (by decide) (Tlv.length_le_of_decode found) read
  have long : ¬ (encodeClasslessRoutes (routedConfig 32).offeredRoutes).length ≤ 255 := by decide +kernel
  exact long (fits.2 (by decide +kernel))

end Vmlab.Net
