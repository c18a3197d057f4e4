import Vmlab.Fastpath.Logic

/-!
# The switch of a segment

Address learning, forwarding and port isolation in userspace
(`src/net/switch.rs`), with the kernel maps it mirrors its table into.
Operations are the steps of a run: the lock they are made under orders them.
-/

namespace Vmlab.Net

open Library Fastpath

def portQueueCapacity : Nat := 512

inductive PortClass where
  | guest (isolated : Bool)
  | service

structure PortConfig where
  framing : FramingMode
  mtu : UInt16

def PortConfig.default : PortConfig := { framing := .raw, mtu := 1500 }

inductive PortTx where
  | packets
  | frames

structure PortEntry where
  portClass : PortClass
  tx : PortTx
  config : PortConfig
  queue : List Packet
  closed : Bool

inductive HookAction where
  | pass
  | drop
  | replace (frame : List UInt8)
  | inject (forward : Option (List UInt8)) (reply : List (List UInt8))

abbrev IngressHook := PortId → PortClass → List UInt8 → HookAction

structure Switch where
  ports : SortedMap PortId PortEntry
  macs : SortedMap MacAddr PortId
  nextPort : PortId
  hook : Option IngressHook
  offload : Option SegmentOffload
  forwarded : Nat
  flooded : Nat
  dropped : Nat

structure Delivery where
  ingress : PortId
  egress : PortId
  frame : List UInt8
  deriving DecidableEq

def deliveryAllowed : PortClass → PortClass → Bool
  | .guest true, .guest _ => false
  | .guest _, .guest true => false
  | _, _ => true

namespace PortEntry

def trySend (entry : PortEntry) (packet : Packet) : Option PortEntry :=
  if entry.closed ∨ portQueueCapacity ≤ entry.queue.length then none
  else
    let queued := match entry.tx with
      | .packets => packet
      | .frames => Packet.raw packet.frame
    some { entry with queue := entry.queue ++ [queued] }

def sendAll (entry : PortEntry) : List Packet → PortEntry × List Packet × Nat
  | [] => (entry, [], 0)
  | packet :: packets =>
    match entry.trySend packet with
    | some entry =>
      let (entry, sent, lost) := entry.sendAll packets
      (entry, packet :: sent, lost)
    | none =>
      let (entry, sent, lost) := entry.sendAll packets
      (entry, sent, lost + 1)

def deliver (entry : PortEntry) (packet : Packet) : PortEntry × List Packet × Nat :=
  match packet.forPort entry.config.framing entry.config.mtu with
  | .error _ => (entry, [], 1)
  | .ok packets => entry.sendAll packets

end PortEntry

namespace Switch

def new (hook : Option IngressHook) (offload : Option SegmentOffload) : Switch where
  ports := .empty
  macs := .empty
  nextPort := 0
  hook
  offload
  forwarded := 0
  flooded := 0
  dropped := 0

def withFastpath (hook : Option IngressHook) : Switch := new hook (some .forSegment)

section

variable (switch : Switch)

def allocPort : Switch × PortId :=
  ({ switch with nextPort := switch.nextPort + 1 }, switch.nextPort)

def attach (id : PortId) (portClass : PortClass) (tx : PortTx) (config : PortConfig) : Switch :=
  { switch with ports := switch.ports.insert id { portClass, tx, config, queue := [], closed := false } }

def addStreamPort (cookies : Cookies) (portClass : PortClass) (config : PortConfig)
    (registration : Registration) : Switch :=
  let (switch, id) := switch.allocPort
  let switch := switch.attach id portClass .packets config
  match switch.offload, portClass, config.framing with
  | some offload, .guest false, .raw =>
    { switch with offload := some (offload.addPort cookies id registration) }
  | _, _, _ => switch

def addChannelPort (portClass : PortClass) (mtu : UInt16) : Switch :=
  let (switch, id) := switch.allocPort
  switch.attach id portClass .frames { framing := .raw, mtu }

end

def removePort (switch : Switch) (id : PortId) : Switch :=
  match switch.ports.get? id with
  | none => switch
  | some _ =>
    let purged := (switch.macs.filter fun entry => entry.2 = id).entries.map Prod.fst
    { switch with
      ports := switch.ports.erase id
      macs := switch.macs.filter fun entry => entry.2 ≠ id
      offload := switch.offload.map fun offload =>
        let offload := offload.removePort id purged
        { offload with engine := offload.engine.closeStream id } }

def deliver (switch : Switch) (ingress target : PortId) (entry : PortEntry) (packet : Packet) :
    Switch × List Delivery :=
  let (entry, sent, lost) := entry.deliver packet
  ({ switch with ports := switch.ports.insert target entry, dropped := switch.dropped + lost },
    sent.map fun packet => { ingress, egress := target, frame := packet.frame })

def learn (switch : Switch) (src : MacAddr) (port : PortId) (inserted : Bool) : Switch :=
  if isMulticast src then switch
  else
    let prev := switch.macs.get? src
    let switch := { switch with macs := switch.macs.insert src port }
    if prev ≠ some port then
      { switch with offload := switch.offload.map fun offload => offload.relearn src port inserted }
    else switch

def flood (port : PortId) (ingressClass : PortClass) (packet : Packet) :
    List (PortId × PortEntry) → Switch → Switch × List Delivery
  | [], switch => (switch, [])
  | (id, entry) :: rest, switch =>
    if id = port ∨ deliveryAllowed ingressClass entry.portClass = false then
      flood port ingressClass packet rest switch
    else
      let (switch, sent) := switch.deliver port id entry packet
      let (switch, more) := flood port ingressClass packet rest switch
      (switch, sent ++ more)

def drop (switch : Switch) : Switch := { switch with dropped := switch.dropped + 1 }

def dispatch (switch : Switch) (port : PortId) (ingressClass : PortClass) (dst : MacAddr)
    (packet : Packet) : Switch × List Delivery :=
  match if isMulticast dst then none else switch.macs.get? dst with
  | some target =>
    if target ≠ port then
      match switch.ports.get? target with
      | none => (switch.drop, [])
      | some entry =>
        if deliveryAllowed ingressClass entry.portClass then
          let (switch, sent) := switch.deliver port target entry packet
          (if sent ≠ [] then { switch with forwarded := switch.forwarded + 1 } else switch, sent)
        else (switch.drop, [])
    else
      -- Learned on the ingress port itself: never echo.
      (switch.drop, [])
  | none =>
    let (switch, sent) := flood port ingressClass packet switch.ports.entries switch
    (if sent ≠ [] then { switch with flooded := switch.flooded + 1 } else switch.drop, sent)

def forwardPacket (switch : Switch) (port : PortId) (ingressClass : PortClass) (packet : Packet)
    (inserted : Bool) : Switch × List Delivery :=
  if packet.frame.length < ethHeaderLen then (switch.drop, [])
  else
    match macAt? packet.frame 0, macAt? packet.frame 6 with
    | some dst, some src => (switch.learn src port inserted).dispatch port ingressClass dst packet
    | _, _ => (switch, [])

def forwardAll (switch : Switch) (port : PortId) (ingressClass : PortClass) (inserted : Bool) :
    List Packet → Switch × List Delivery
  | [] => (switch, [])
  | packet :: packets =>
    let (switch, sent) := switch.forwardPacket port ingressClass packet inserted
    let (switch, more) := switch.forwardAll port ingressClass inserted packets
    (switch, sent ++ more)

def rewritten (switch : Switch) (original : Packet) (frame : List UInt8) (mtu : UInt16) : Switch × List Packet :=
  if original.header.gsoType = Offload.gsoNone then (switch, [Packet.raw frame])
  else
    match original.header.segments frame mtu with
    | .ok frames => (switch, frames.map Packet.raw)
    | .error _ => (switch.drop, [])

def reply (port : PortId) : List (List UInt8) → Switch → Switch × List Delivery
  | [], switch => (switch, [])
  | frame :: frames, switch =>
    match switch.ports.get? port with
    | none => (switch, [])
    | some entry =>
      let (switch, sent) := switch.deliver port port entry (Packet.raw frame)
      let (switch, more) := reply port frames switch
      (switch, sent ++ more)

section

variable (switch : Switch)

/-- What the installed hook makes of a frame; without one, frames pass. -/
def hookAction (port : PortId) (ingressClass : PortClass) (frame : List UInt8) : HookAction :=
  match switch.hook with
  | some hook => hook port ingressClass frame
  | none => .pass

def ingressPacket (port : PortId) (packet : Packet) (inserted : Bool) : Switch × List Delivery :=
  match switch.ports.get? port with
  | none => (switch, [])
  | some entry =>
    match switch.hookAction port entry.portClass packet.frame with
    | .pass => switch.forwardAll port entry.portClass inserted [packet]
    | .drop => (switch.drop, [])
    | .replace frame =>
      let (switch, forward) := switch.rewritten packet frame entry.config.mtu
      switch.forwardAll port entry.portClass inserted forward
    | .inject forward replies =>
      let (switch, sent) := reply port replies switch
      let (switch, forward) := match forward with
        | some frame => switch.rewritten packet frame entry.config.mtu
        | none => (switch, [])
      let (switch, more) := switch.forwardAll port entry.portClass inserted forward
      (switch, sent ++ more)

/-- One buffer arrives on the stream of `port`. What the kernel does not send
on waits for the reader of the stream. -/
def skb (cookies : Cookies) (port : PortId) (bytes : List UInt8) (insertOk : Bool) :
    Switch × List Delivery :=
  match switch.offload with
  | none => (switch, [])
  | some offload =>
    let (engine, redirected) := offload.engine.guestSkb cookies port bytes insertOk
    ({ switch with offload := some { offload with engine } },
      match redirected with
      | some egress => [{ ingress := port, egress, frame := bytes.drop prefixLen }]
      | none => [])

/-- The port whose peer gets what the writer of `id` takes from its queue: an
offloaded port is written through its loopback. -/
def writtenTo (id : PortId) : Option PortId :=
  match switch.offload with
  | none => some id
  | some offload =>
    match offload.ports.get? id with
    | none => some id
    | some txCookie =>
      if id ∈ offload.engine.txHash then offload.engine.verdictTx txCookie else none

def takePacket (id : PortId) : Switch :=
  match switch.ports.get? id with
  | none => switch
  | some entry => { switch with ports := switch.ports.insert id { entry with queue := entry.queue.tail } }

def closeQueue (id : PortId) : Switch :=
  match switch.ports.get? id with
  | none => switch
  | some entry => { switch with ports := switch.ports.insert id { entry with closed := true } }

end

inductive Event where
  | addStream (portClass : PortClass) (config : PortConfig) (registration : Registration)
  | addChannel (portClass : PortClass) (mtu : UInt16)
  | remove (port : PortId)
  | ingress (port : PortId) (packet : Packet) (inserted : Bool)
  | skb (port : PortId) (bytes : List UInt8) (insertOk : Bool)
  | take (port : PortId)
  | close (port : PortId)

def step (cookies : Cookies) (switch : Switch) : Event → Switch × List Delivery
  | .addStream portClass config registration =>
    (switch.addStreamPort cookies portClass config registration, [])
  | .addChannel portClass mtu => (switch.addChannelPort portClass mtu, [])
  | .remove port => (switch.removePort port, [])
  | .ingress port packet inserted => switch.ingressPacket port packet inserted
  | .skb port bytes insertOk => switch.skb cookies port bytes insertOk
  | .take port => (switch.takePacket port, [])
  | .close port => (switch.closeQueue port, [])

def run (cookies : Cookies) (switch : Switch) (events : List Event) : Switch :=
  events.foldl (fun switch event => (switch.step cookies event).1) switch

end Switch

/-! ## Isolation on both paths: `deliveryAllowed` in userspace, the stored stream state in the kernel -/

open SortedMap (get?_erase get?_eq_some get?_insert)
open List
open LengthPrefixed (encode)

variable {id target : PortId} {entry : PortEntry} {offload : SegmentOffload}

namespace Switch

def classOf (switch : Switch) (id : PortId) : Option PortClass := (switch.ports.get? id).map PortEntry.portClass

structure SameSockets (before after : SegmentOffload) : Prop where
  ports : after.ports = before.ports
  portHash : after.engine.portHash = before.engine.portHash
  txTarget : after.engine.txTarget = before.engine.txTarget
  sockState : after.engine.sockState = before.engine.sockState

structure Quiet (before after : Switch) : Prop where
  classes : ∀ id, after.classOf id = before.classOf id
  next : after.nextPort = before.nextPort
  hook : after.hook = before.hook
  sockets : ∀ offload, after.offload = some offload → ∃ old, before.offload = some old ∧ SameSockets old offload

structure Permitted (switch : Switch) (delivery : Delivery) (ingressClass egressClass : PortClass) : Prop where
  ingress : switch.classOf delivery.ingress = some ingressClass
  egress : switch.classOf delivery.egress = some egressClass
  allowed : deliveryAllowed ingressClass egressClass = true

section

variable {switch middle after : Switch} {port : PortId} {ingressClass : PortClass} {packet : Packet}
  {inserted : Bool}

theorem SameSockets.refl (offload : SegmentOffload) : SameSockets offload offload := ⟨rfl, rfl, rfl, rfl⟩

theorem SameSockets.trans {first second third : SegmentOffload} (left : SameSockets first second)
    (right : SameSockets second third) : SameSockets first third where
  ports := right.ports.trans left.ports
  portHash := right.portHash.trans left.portHash
  txTarget := right.txTarget.trans left.txTarget
  sockState := right.sockState.trans left.sockState

theorem Quiet.refl (switch : Switch) : Quiet switch switch where
  classes _ := rfl
  next := rfl
  hook := rfl
  sockets offload active := ⟨offload, active, .refl offload⟩

theorem Quiet.trans (left : Quiet switch middle) (right : Quiet middle after) : Quiet switch after where
  classes id := (right.classes id).trans (left.classes id)
  next := right.next.trans left.next
  hook := right.hook.trans left.hook
  sockets offload active := by
    obtain ⟨between, betweenActive, rightSame⟩ := right.sockets offload active
    obtain ⟨old, oldActive, leftSame⟩ := left.sockets between betweenActive
    exact ⟨old, oldActive, leftSame.trans rightSame⟩

theorem Quiet.of_eq (ports : after.ports = switch.ports) (next : after.nextPort = switch.nextPort)
    (hook : after.hook = switch.hook) (offload : after.offload = switch.offload) : Quiet switch after where
  classes id := by rw [classOf, classOf, ports]
  next := next
  hook := hook
  sockets kernel active := ⟨kernel, offload ▸ active, .refl kernel⟩

theorem Quiet.insert {portClass : PortClass}
    (attached : switch.classOf id = some portClass) (ports : after.ports = switch.ports.insert id entry)
    (keeps : entry.portClass = portClass) (next : after.nextPort = switch.nextPort)
    (hook : after.hook = switch.hook) (offload : after.offload = switch.offload) : Quiet switch after where
  classes other := by
    rw [classOf, ports, get?_insert]
    split
    · next equal => rw [equal, attached, Option.map_some, keeps]
    · rfl
  next := next
  hook := hook
  sockets kernel active := ⟨kernel, offload ▸ active, .refl kernel⟩

theorem portClass_trySend {sent : PortEntry} (accepted : entry.trySend packet = some sent) :
    sent.portClass = entry.portClass := by
  unfold PortEntry.trySend at accepted
  split at accepted
  · cases accepted
  · cases accepted
    rfl

theorem portClass_sendAll (entry : PortEntry) (packets : List Packet) :
    (entry.sendAll packets).1.portClass = entry.portClass := by
  induction packets generalizing entry with
  | nil => rfl
  | cons packet packets ih =>
    rw [PortEntry.sendAll]
    split
    · next sent accepted => exact (ih sent).trans (portClass_trySend accepted)
    · exact ih entry

theorem portClass_deliver (entry : PortEntry) (packet : Packet) :
    (entry.deliver packet).1.portClass = entry.portClass := by
  unfold PortEntry.deliver
  split
  · rfl
  · exact portClass_sendAll entry _

theorem classOf_of_get? (found : switch.ports.get? id = some entry) : switch.classOf id = some entry.portClass := by
  rw [classOf, found, Option.map_some]

theorem deliver_quiet (attached : switch.classOf target = some entry.portClass) :
    Quiet switch (switch.deliver port target entry packet).1 :=
  .insert attached rfl (portClass_deliver entry packet) rfl rfl rfl

theorem deliver_ends {delivery : Delivery} (delivered : delivery ∈ (switch.deliver port target entry packet).2) :
    delivery.ingress = port ∧ delivery.egress = target := by
  obtain ⟨_, _, rfl⟩ := mem_map.mp delivered
  exact ⟨rfl, rfl⟩

theorem learn_quiet (src : MacAddr) : Quiet switch (switch.learn src port inserted) := by
  have mirrored : ∀ offload : SegmentOffload, SameSockets offload (offload.relearn src port inserted) := by
    intro offload
    unfold SegmentOffload.relearn
    split
    · split
      · exact ⟨rfl, rfl, rfl, rfl⟩
      · exact .refl offload
    · exact ⟨rfl, rfl, rfl, rfl⟩
  unfold learn
  split
  · exact .refl switch
  dsimp only
  split
  · refine ⟨fun _ => rfl, rfl, rfl, ?_⟩
    intro offload active
    obtain ⟨old, oldActive, rfl⟩ := Option.map_eq_some_iff.mp active
    exact ⟨old, oldActive, mirrored old⟩
  · exact .of_eq rfl rfl rfl rfl

def Forwards (switch : Switch) (port : PortId) (result : Switch × List Delivery) : Prop :=
  Quiet switch result.1 ∧ ∀ delivery ∈ result.2, delivery.ingress = port ∧ delivery.egress ≠ port ∧
    ∃ ingressClass egressClass, Permitted switch delivery ingressClass egressClass

theorem Forwards.nothing (quiet : Quiet switch after) : Forwards switch port (after, []) :=
  ⟨quiet, fun _ delivered => nomatch delivered⟩

theorem Forwards.of_quiet {result : Switch × List Delivery} (quiet : Quiet switch middle)
    (forwards : Forwards middle port result) : Forwards switch port result := by
  refine ⟨quiet.trans forwards.1, ?_⟩
  intro delivery delivered
  obtain ⟨own, other, ingressClass, egressClass, ingress, egress, allowed⟩ := forwards.2 delivery delivered
  rw [quiet.classes] at ingress egress
  exact ⟨own, other, ingressClass, egressClass, ingress, egress, allowed⟩

theorem Forwards.append {first second : Switch × List Delivery} (left : Forwards switch port first)
    (right : Forwards first.1 port second) : Forwards switch port (second.1, first.2 ++ second.2) := by
  have later := right.of_quiet left.1
  refine ⟨later.1, ?_⟩
  intro delivery delivered
  rcases mem_append.mp delivered with early | late
  · exact left.2 delivery early
  · exact later.2 delivery late

theorem deliver_forwards
    (ingress : switch.classOf port = some ingressClass) (attached : switch.classOf target = some entry.portClass)
    (other : target ≠ port) (allowed : deliveryAllowed ingressClass entry.portClass = true) :
    Forwards switch port (switch.deliver port target entry packet) := by
  refine ⟨deliver_quiet attached, ?_⟩
  intro delivery delivered
  obtain ⟨own, egress⟩ := deliver_ends delivered
  exact ⟨own, egress ▸ other, ingressClass, entry.portClass, own ▸ ingress, egress ▸ attached, allowed⟩

theorem flood_forwards {entries : List (PortId × PortEntry)} (ingress : switch.classOf port = some ingressClass)
    (attached : ∀ entry ∈ entries, switch.classOf entry.1 = some entry.2.portClass) :
    Forwards switch port (flood port ingressClass packet entries switch) := by
  induction entries generalizing switch with
  | nil => exact .nothing (.refl switch)
  | cons head entries ih =>
    obtain ⟨id, entry⟩ := head
    have rest : ∀ entry ∈ entries, switch.classOf entry.1 = some entry.2.portClass := fun entry member =>
      attached entry (mem_cons_of_mem _ member)
    rw [flood]
    split
    · exact ih ingress rest
    rename_i eligible
    obtain ⟨other, allowed⟩ := not_or.mp eligible
    have sent : Forwards switch port (switch.deliver port id entry packet) :=
      deliver_forwards ingress (attached (id, entry) mem_cons_self) other (by simpa using allowed)
    refine sent.append (ih ?_ ?_)
    · rw [sent.1.classes]
      exact ingress
    intro entry member
    rw [sent.1.classes]
    exact rest entry member

theorem dispatch_forwards (dst : MacAddr) (ingress : switch.classOf port = some ingressClass) :
    Forwards switch port (switch.dispatch port ingressClass dst packet) := by
  have dropped : Forwards switch port (switch.drop, []) := .nothing (.of_eq rfl rfl rfl rfl)
  unfold dispatch
  split
  · next target _ =>
    split
    · next other =>
      split
      · exact dropped
      rename_i entry found
      split
      · next allowed =>
        have sent : Forwards switch port (switch.deliver port target entry packet) :=
          deliver_forwards ingress (classOf_of_get? found) other allowed
        refine ⟨sent.1.trans ?_, sent.2⟩
        dsimp only
        split <;> exact .of_eq rfl rfl rfl rfl
      · exact dropped
    · exact dropped
  have sent : Forwards switch port (flood port ingressClass packet switch.ports.entries switch) :=
    flood_forwards ingress fun entry member => classOf_of_get? (get?_eq_some.mpr member)
  refine ⟨sent.1.trans ?_, sent.2⟩
  dsimp only
  split <;> exact .of_eq rfl rfl rfl rfl

theorem forwardPacket_forwards (ingress : switch.classOf port = some ingressClass) :
    Forwards switch port (switch.forwardPacket port ingressClass packet inserted) := by
  unfold forwardPacket
  split
  · exact .nothing (.of_eq rfl rfl rfl rfl)
  split
  · next dst src _ _ =>
    have learned : Quiet switch (switch.learn src port inserted) := learn_quiet src
    exact (dispatch_forwards dst ((learned.classes port).trans ingress)).of_quiet learned
  · exact .nothing (.refl switch)

theorem ingressPacket_forwards (passing : ∀ id portClass frame, switch.hookAction id portClass frame = .pass) :
    Forwards switch port (switch.ingressPacket port packet inserted) := by
  unfold ingressPacket
  split
  · exact .nothing (.refl switch)
  · next entry found =>
    simp only [passing, forwardAll, append_nil]
    exact forwardPacket_forwards (classOf_of_get? found)

theorem takePacket_quiet : Quiet switch (switch.takePacket port) := by
  unfold takePacket
  split
  · exact .refl switch
  · next entry found => exact .insert (classOf_of_get? found) rfl rfl rfl rfl rfl

theorem closeQueue_quiet : Quiet switch (switch.closeQueue port) := by
  unfold closeQueue
  split
  · exact .refl switch
  · next entry found => exact .insert (classOf_of_get? found) rfl rfl rfl rfl rfl

end

section

variable {cookies : Cookies} {switch after : Switch} {port : PortId}

section

variable (cookies : Cookies)

def Looped (offload : SegmentOffload) : Prop :=
  ∀ id cookie, offload.ports.get? id = some cookie →
    cookie = cookies.loopback id ∧ offload.engine.txTarget.get? cookie = some id

variable (switch : Switch)

structure Sound : Prop where
  fresh : ∀ id portClass, switch.classOf id = some portClass → id < switch.nextPort
  registered : ∀ offload, switch.offload = some offload → ∀ id ∈ offload.engine.portHash,
    switch.classOf id = some (.guest false)
  looped : ∀ offload, switch.offload = some offload → Looped cookies offload

def Attributed : Prop :=
  ∀ offload, switch.offload = some offload → ∀ id st,
    offload.engine.sockState.get? (cookies.sender id) = some st →
      cookies.sender id ≠ 0 ∧ id < switch.nextPort ∧ st.portId = id

def primedPort (port : PortId) (bytes : List UInt8) : Option PortId :=
  match switch.offload with
  | none => none
  | some offload =>
    match offload.engine.sockState.get? (cookies.sender port),
      (stepSkb .initial bytes.length (loadExact bytes)).1 with
    | none, .aligned _ => (macAt? bytes (prefixLen + 6)).bind offload.engine.macMap.get?
    | _, _ => none

def PrimesOwnPort : Event → Prop
  | .skb port bytes _ => ∀ learned ∈ switch.primedPort cookies port bytes, learned = port
  | _ => True

end

instance (switch : Switch) (event : Event) : Decidable (PrimesOwnPort cookies switch event) :=
  match event with
  | .skb port bytes _ =>
    inferInstanceAs (Decidable (∀ learned ∈ switch.primedPort cookies port bytes, learned = port))
  | .addStream .. | .addChannel .. | .remove _ | .ingress .. | .take _ | .close _ => .isTrue trivial

theorem Sound.quiet (sound : Sound cookies switch) (quiet : Quiet switch after) : Sound cookies after where
  fresh id portClass attached := by
    rw [quiet.classes] at attached
    rw [quiet.next]
    exact sound.fresh id portClass attached
  registered offload active id member := by
    obtain ⟨old, oldActive, same⟩ := quiet.sockets offload active
    rw [same.portHash] at member
    rw [quiet.classes]
    exact sound.registered old oldActive id member
  looped offload active id cookie kept := by
    obtain ⟨old, oldActive, same⟩ := quiet.sockets offload active
    rw [same.ports] at kept
    rw [same.txTarget]
    exact sound.looped old oldActive id cookie kept

theorem Attributed.quiet (attributed : Attributed cookies switch) (quiet : Quiet switch after) :
    Attributed cookies after := by
  intro offload active id st stored
  obtain ⟨old, oldActive, same⟩ := quiet.sockets offload active
  rw [same.sockState] at stored
  rw [quiet.next]
  exact attributed old oldActive id st stored

theorem classOf_attach (switch : Switch) (portClass : PortClass) (tx : PortTx) (config : PortConfig) (id : PortId) :
    (switch.allocPort.1.attach switch.nextPort portClass tx config).classOf id =
      if id = switch.nextPort then some portClass else switch.classOf id := by
  rw [classOf, attach, get?_insert]
  split <;> rfl

theorem Sound.attach (sound : Sound cookies switch) (portClass : PortClass) (tx : PortTx) (config : PortConfig) :
    Sound cookies (switch.allocPort.1.attach switch.nextPort portClass tx config) where
  fresh id other attached := by
    rw [classOf_attach] at attached
    change id < switch.nextPort + 1
    split at attached
    · next same => exact same ▸ Nat.lt_succ_self _
    · exact Nat.lt_succ_of_lt (sound.fresh id other attached)
  registered offload active id member := by
    have guest := sound.registered offload active id member
    rw [classOf_attach, if_neg (Nat.ne_of_lt (sound.fresh id _ guest))]
    exact guest
  looped := sound.looped

theorem Attributed.attach (attributed : Attributed cookies switch) (portClass : PortClass) (tx : PortTx)
    (config : PortConfig) : Attributed cookies (switch.allocPort.1.attach switch.nextPort portClass tx config) := by
  intro offload active id st stored
  obtain ⟨nonzero, older, own⟩ := attributed offload active id st stored
  exact ⟨nonzero, Nat.lt_succ_of_lt older, own⟩

theorem mem_addPort {registration : Registration}
    (member : id ∈ (offload.addPort cookies port registration).engine.portHash) :
    id = port ∨ id ∈ offload.engine.portHash := by
  cases registration with
  | streamRefused => exact .inr member
  | pairRefused | registered => exact mem_cons.mp member
  | txRefused => exact mem_cons.mp (List.mem_filter.mp member).1

theorem sockState_addPort {registration : Registration} {entry : Nat × SockState}
    (member : entry ∈ (offload.addPort cookies port registration).engine.sockState) :
    entry ∈ offload.engine.sockState := by
  cases registration with
  | streamRefused | pairRefused | registered => exact member
  | txRefused => exact (SortedMap.mem_filter.mp member).1

theorem Looped.addPort (looped : Looped cookies offload)
    (registration : Registration) : Looped cookies (offload.addPort cookies port registration) := by
  intro id cookie kept
  cases registration with
  | streamRefused | pairRefused => exact looped id cookie kept
  | txRefused =>
    obtain ⟨own, target⟩ := looped id cookie kept
    refine ⟨own, ?_⟩
    change (offload.engine.txTarget.erase 0).get? cookie = some id
    rw [get?_erase, if_neg (own ▸ cookies.loopback_ne_zero id)]
    exact target
  | registered =>
    change (offload.ports.insert port (cookies.loopback port)).get? id = some cookie at kept
    change cookie = cookies.loopback id ∧
      (offload.engine.txTarget.insert (cookies.loopback port) port).get? cookie = some id
    rw [get?_insert] at kept ⊢
    split at kept
    · next same =>
      cases kept
      rw [if_pos rfl, same]
      exact ⟨rfl, rfl⟩
    · next differ =>
      obtain ⟨own, target⟩ := looped id cookie kept
      refine ⟨own, ?_⟩
      rw [if_neg fun same => differ (cookies.loopback_distinct (own ▸ same))]
      exact target

theorem addStreamPort_cases (switch : Switch) (cookies : Cookies) (portClass : PortClass)
    (config : PortConfig) (registration : Registration) :
    let attached := switch.allocPort.1.attach switch.nextPort portClass .packets config
    switch.addStreamPort cookies portClass config registration = attached ∨
      ∃ offload, switch.offload = some offload ∧ portClass = .guest false ∧
        switch.addStreamPort cookies portClass config registration =
          { attached with offload := some (offload.addPort cookies switch.nextPort registration) } := by
  simp only [addStreamPort]
  split
  · next offload _ active => exact .inr ⟨offload, active, rfl, rfl⟩
  · exact .inl rfl

theorem Sound.addStreamPort (sound : Sound cookies switch) (portClass : PortClass) (config : PortConfig)
    (registration : Registration) : Sound cookies (switch.addStreamPort cookies portClass config registration) := by
  have attached := sound.attach portClass .packets config
  rcases addStreamPort_cases switch cookies portClass config registration with plain | ⟨old, active, rfl, shape⟩
  · exact plain ▸ attached
  rw [shape]
  refine ⟨attached.fresh, ?_, ?_⟩
  · rintro _ ⟨⟩ id member
    rcases mem_addPort member with rfl | older
    · exact (classOf_attach switch (.guest false) .packets config _).trans (if_pos rfl)
    · exact attached.registered old active id older
  · rintro _ ⟨⟩
    exact (sound.looped old active).addPort registration

theorem Attributed.addStreamPort (attributed : Attributed cookies switch) (portClass : PortClass)
    (config : PortConfig) (registration : Registration) :
    Attributed cookies (switch.addStreamPort cookies portClass config registration) := by
  have attached := attributed.attach portClass .packets config
  rcases addStreamPort_cases switch cookies portClass config registration with plain | ⟨old, active, rfl, shape⟩
  · exact plain ▸ attached
  rw [shape]
  rintro _ ⟨⟩ id st stored
  have older := sockState_addPort (get?_eq_some.mp stored)
  exact attached old active id st (get?_eq_some.mpr older)

structure TornDown (id : PortId) (before after : SegmentOffload) : Prop where
  portHash : ∀ other ∈ after.engine.portHash, other ≠ id ∧ other ∈ before.engine.portHash
  sockState : ∀ entry ∈ after.engine.sockState, entry ∈ before.engine.sockState
  ports : ∀ other cookie, after.ports.get? other = some cookie → other ≠ id ∧ before.ports.get? other = some cookie
  txTarget : ∀ cookie, before.ports.get? id ≠ some cookie →
    after.engine.txTarget.get? cookie = before.engine.txTarget.get? cookie

theorem sameSockets_removeMacs (offload : SegmentOffload) (macs : List MacAddr) :
    SameSockets offload { offload with engine := macs.foldl Engine.removeMac offload.engine } := by
  induction macs generalizing offload with
  | nil => exact .refl offload
  | cons mac macs ih =>
    have removed : SameSockets offload { offload with engine := offload.engine.removeMac mac } := ⟨rfl, rfl, rfl, rfl⟩
    exact removed.trans (ih { offload with engine := offload.engine.removeMac mac })

theorem removePort_tornDown (offload : SegmentOffload) (id : PortId) (purged : List MacAddr) :
    let removed := offload.removePort id purged
    TornDown id offload { removed with engine := removed.engine.closeStream id } := by
  unfold SegmentOffload.removePort
  split
  · next absent =>
    have same := sameSockets_removeMacs offload purged
    refine ⟨?_, ?_, ?_, ?_⟩
    · intro other member
      obtain ⟨kept, differ⟩ := List.mem_filter.mp member
      exact ⟨of_decide_eq_true differ, same.portHash ▸ kept⟩
    · intro entry member
      exact same.sockState ▸ member
    · intro other cookie kept
      refine ⟨?_, kept⟩
      rintro rfl
      cases absent.symm.trans kept
    · intro cookie _
      exact congrArg (SortedMap.get? · cookie) same.txTarget
  · next txCookie found =>
    refine ⟨?_, ?_, ?_, ?_⟩
    · intro other member
      obtain ⟨kept, differ⟩ := List.mem_filter.mp member
      exact ⟨of_decide_eq_true differ, (List.mem_filter.mp kept).1⟩
    · intro entry member
      exact (SortedMap.mem_filter.mp member).1
    · intro other cookie kept
      change (offload.ports.erase id).get? other = some cookie at kept
      rw [get?_erase] at kept
      split at kept
      · cases kept
      · next differ => exact ⟨differ, kept⟩
    · intro cookie other
      change (offload.engine.txTarget.erase txCookie).get? cookie = _
      rw [get?_erase, if_neg]
      rintro rfl
      exact other found

theorem Sound.removePort (sound : Sound cookies switch) (id : PortId) : Sound cookies (switch.removePort id) := by
  unfold Switch.removePort
  split
  · exact sound
  have kept : ∀ other, other ≠ id →
      ((switch.ports.erase id).get? other).map PortEntry.portClass = switch.classOf other := by
    intro other differ
    rw [get?_erase, if_neg differ, classOf]
  refine ⟨?_, ?_, ?_⟩
  · intro other portClass attached
    change ((switch.ports.erase id).get? other).map PortEntry.portClass = some portClass at attached
    rw [get?_erase] at attached
    split at attached
    · cases attached
    · exact sound.fresh other portClass attached
  · intro offload active other member
    obtain ⟨old, oldActive, rfl⟩ := Option.map_eq_some_iff.mp active
    obtain ⟨differ, older⟩ := (removePort_tornDown old id _).portHash other member
    exact (kept other differ).trans (sound.registered old oldActive other older)
  intro offload active other cookie found
  obtain ⟨old, oldActive, rfl⟩ := Option.map_eq_some_iff.mp active
  obtain ⟨differ, older⟩ := (removePort_tornDown old id _).ports other cookie found
  obtain ⟨own, target⟩ := sound.looped old oldActive other cookie older
  refine ⟨own, ?_⟩
  rw [(removePort_tornDown old id _).txTarget cookie]
  · exact target
  intro shared
  obtain ⟨theirs, _⟩ := sound.looped old oldActive id cookie shared
  exact differ (cookies.loopback_distinct (own.symm.trans theirs))

theorem Attributed.removePort (attributed : Attributed cookies switch) (id : PortId) :
    Attributed cookies (switch.removePort id) := by
  unfold Switch.removePort
  split
  · exact attributed
  intro offload active other st stored
  obtain ⟨old, oldActive, rfl⟩ := Option.map_eq_some_iff.mp active
  have older := (removePort_tornDown old id _).sockState _ (get?_eq_some.mp stored)
  exact attributed old oldActive other st (get?_eq_some.mpr older)

theorem verdictGuest_own {cookie : Nat} {macMap : MacAddr → Option Nat} {insertOk : Bool}
    {stored : Option SockState} {bytes : List UInt8} (own : ∀ st, stored = some st → cookie ≠ 0 ∧ st.portId = port)
    (primes : stored = none → ∀ length srcMac learned,
      (stepSkb .initial bytes.length (loadExact bytes)).1 = .aligned length →
      macAt? bytes (prefixLen + 6) = some srcMac → macMap srcMac = some learned → learned = port) :
    (verdictGuest cookie macMap insertOk stored bytes).1 ≠ .redirect port ∧
      ∀ st, (verdictGuest cookie macMap insertOk stored bytes).2 = some st → cookie ≠ 0 ∧ st.portId = port := by
  have elsewhere : ∀ dstMac srcMac, (classifyFrame dstMac srcMac port macMap).action ≠ .redirect port := by
    intro dstMac srcMac redirected
    cases verdict : classifyFrame dstMac srcMac port macMap with
    | pass =>
      rw [verdict] at redirected
      cases redirected
    | redirect dstPort =>
      rw [verdict] at redirected
      cases redirected
      exact (classifyFrame_eq_redirect verdict).2.2 rfl
  unfold verdictGuest
  split
  · exact ⟨fun redirected => (nomatch redirected), own⟩
  rename_i attributed
  cases stored with
  | some before =>
    have kept : ∀ fs st, some { before with fs } = some st → cookie ≠ 0 ∧ st.portId = port := by
      rintro fs st ⟨⟩
      exact own before rfl
    have named : before.portId = port := (own before rfl).2
    simp only [Option.getD_some, Option.map_some]
    split
    · split
      · next dstMac srcMac _ _ =>
        refine ⟨?_, kept _⟩
        rw [named]
        exact elsewhere dstMac srcMac
      · exact ⟨fun redirected => (nomatch redirected), kept _⟩
    · exact ⟨fun redirected => (nomatch redirected), kept _⟩
  | none =>
    have start := primes rfl
    simp only [Option.getD_none, Option.map_none]
    split
    · next length stepped =>
      split
      · next dstMac srcMac _ source =>
        split
        · exact ⟨fun redirected => (nomatch redirected), fun _ stored => (nomatch stored)⟩
        rename_i learned found
        obtain rfl := start length srcMac learned stepped source found
        refine ⟨elsewhere dstMac srcMac, ?_⟩
        intro st primed
        split at primed
        · cases primed
          exact ⟨attributed, rfl⟩
        · cases primed
      · exact ⟨fun redirected => (nomatch redirected), fun _ stored => (nomatch stored)⟩
    · exact ⟨fun redirected => (nomatch redirected), fun _ stored => (nomatch stored)⟩

theorem guestSkb_sockets (offload : SegmentOffload) (cookies : Cookies) (port : PortId) (bytes : List UInt8)
    (insertOk : Bool) : (offload.engine.guestSkb cookies port bytes insertOk).1.portHash = offload.engine.portHash ∧
      (offload.engine.guestSkb cookies port bytes insertOk).1.txTarget = offload.engine.txTarget ∧
      ∀ egress, (offload.engine.guestSkb cookies port bytes insertOk).2 = some egress →
        port ∈ offload.engine.portHash ∧ egress ∈ offload.engine.portHash := by
  unfold Engine.guestSkb
  split
  · next registered =>
    refine ⟨rfl, rfl, ?_⟩
    intro egress redirected
    dsimp only at redirected
    split at redirected
    · split at redirected
      · next present =>
        cases redirected
        exact ⟨registered, present⟩
      · cases redirected
    · cases redirected
  · exact ⟨rfl, rfl, fun _ redirected => (nomatch redirected)⟩

theorem Sound.skb (sound : Sound cookies switch) (bytes : List UInt8) (insertOk : Bool) :
    Sound cookies (switch.skb cookies port bytes insertOk).1 ∧
      ∀ delivery ∈ (switch.skb cookies port bytes insertOk).2, delivery.ingress = port ∧
        Permitted switch delivery (.guest false) (.guest false) := by
  unfold Switch.skb
  split
  · exact ⟨sound, fun _ delivered => (nomatch delivered)⟩
  rename_i offload active
  obtain ⟨portHash, txTarget, ends⟩ := guestSkb_sockets offload cookies port bytes insertOk
  have registered := sound.registered offload active
  refine ⟨⟨sound.fresh, ?_, ?_⟩, ?_⟩
  · rintro _ ⟨⟩ id member
    exact registered id (portHash ▸ member)
  · rintro _ ⟨⟩ id cookie kept
    change _ ∧ (offload.engine.guestSkb cookies port bytes insertOk).1.txTarget.get? cookie = some id
    rw [txTarget]
    exact sound.looped offload active id cookie kept
  intro delivery delivered
  dsimp only at delivered
  split at delivered
  · next egress redirected =>
    obtain ⟨ingress, present⟩ := ends egress redirected
    obtain rfl := mem_singleton.mp delivered
    exact ⟨rfl, registered port ingress, registered egress present, rfl⟩
  · cases delivered

theorem guestSkb_own {engine : Engine} {bytes : List UInt8} {insertOk : Bool}
    (own : ∀ st, engine.sockState.get? (cookies.sender port) = some st → cookies.sender port ≠ 0 ∧ st.portId = port)
    (primes : engine.sockState.get? (cookies.sender port) = none → ∀ length srcMac learned,
      (stepSkb .initial bytes.length (loadExact bytes)).1 = .aligned length →
      macAt? bytes (prefixLen + 6) = some srcMac → engine.macMap.get? srcMac = some learned →
      learned = port) :
    (engine.guestSkb cookies port bytes insertOk).2 ≠ some port ∧
      ∀ cookie st, (engine.guestSkb cookies port bytes insertOk).1.sockState.get? cookie = some st →
        engine.sockState.get? cookie = some st ∨
          (port ∈ engine.portHash ∧ cookie = cookies.sender port ∧ cookie ≠ 0 ∧ st.portId = port) := by
  have verdict := @verdictGuest_own port (cookies.sender port) engine.macMap.get? insertOk _ bytes own primes
  unfold Engine.guestSkb
  split
  · next registered =>
    dsimp only
    constructor
    · intro echoed
      split at echoed
      · next dstPort redirected =>
        split at echoed
        · cases echoed
          exact verdict.1 redirected
        · cases echoed
      · cases echoed
    intro cookie st stored
    split at stored
    · next primed result =>
      rw [get?_insert] at stored
      split at stored
      · next same =>
        cases stored
        obtain ⟨nonzero, named⟩ := verdict.2 _ result
        exact .inr ⟨registered, same, same ▸ nonzero, named⟩
      · exact .inl stored
    · exact .inl stored
  · exact ⟨fun echoed => (nomatch echoed), fun _ _ stored => .inl stored⟩

theorem Attributed.skb (attributed : Attributed cookies switch) (sound : Sound cookies switch)
    {bytes : List UInt8} {insertOk : Bool} (primes : PrimesOwnPort cookies switch (.skb port bytes insertOk)) :
    Attributed cookies (switch.skb cookies port bytes insertOk).1 ∧
      ∀ delivery ∈ (switch.skb cookies port bytes insertOk).2, delivery.egress ≠ port := by
  unfold Switch.skb
  split
  · exact ⟨attributed, fun _ delivered => (nomatch delivered)⟩
  rename_i offload active
  have own : ∀ st, offload.engine.sockState.get? (cookies.sender port) = some st →
      cookies.sender port ≠ 0 ∧ st.portId = port := fun st stored =>
    have named := attributed offload active port st stored
    ⟨named.1, named.2.2⟩
  have primed : offload.engine.sockState.get? (cookies.sender port) = none → ∀ length srcMac learned,
      (stepSkb .initial bytes.length (loadExact bytes)).1 = .aligned length →
      macAt? bytes (prefixLen + 6) = some srcMac → offload.engine.macMap.get? srcMac = some learned →
      learned = port := by
    intro unstored length srcMac learned aligned source found
    refine primes learned ?_
    simp only [primedPort, active, unstored, aligned, source, Option.bind_some, found, Option.mem_def]
  obtain ⟨elsewhere, states⟩ := @guestSkb_own cookies port _ bytes insertOk own primed
  constructor
  · rintro _ ⟨⟩ id st stored
    rcases states _ st stored with older | ⟨registered, same, nonzero, named⟩
    · exact attributed offload active id st older
    obtain rfl := cookies.sender_distinct same nonzero
    have guest := sound.registered offload active id registered
    exact ⟨nonzero, sound.fresh id _ guest, named⟩
  intro delivery delivered
  dsimp only at delivered
  split at delivered
  · next egress redirected =>
    intro echoed
    rw [mem_singleton.mp delivered] at echoed
    exact elsewhere (redirected.trans (congrArg some echoed))
  · cases delivered

end

/-- Where a delivery comes from and goes, in the words of the isolation rule. -/
structure Isolated (switch : Switch) (delivery : Delivery) : Prop where
  ends : ∃ ingressClass egressClass, switch.classOf delivery.ingress = some ingressClass ∧
    switch.classOf delivery.egress = some egressClass ∧
    (ingressClass = .guest true → ∀ isolated, egressClass ≠ .guest isolated) ∧
    (∀ isolated, ingressClass = .guest isolated → egressClass ≠ .guest true)
  away : delivery.egress ≠ delivery.ingress

theorem Permitted.isolated {switch : Switch} {delivery : Delivery} {ingressClass egressClass : PortClass}
    (permitted : Permitted switch delivery ingressClass egressClass)
    (away : delivery.egress ≠ delivery.ingress) : Isolated switch delivery := by
  obtain ⟨ingress, egress, allowed⟩ := permitted
  refine ⟨⟨ingressClass, egressClass, ingress, egress, ?_, ?_⟩, away⟩
  · rintro rfl isolated rfl
    cases allowed
  · rintro isolated rfl rfl
    cases isolated <;> cases allowed

section

variable {cookies : Cookies} {switch : Switch}

structure Segment (cookies : Cookies) (switch : Switch) : Prop where
  passing : ∀ id portClass frame, switch.hookAction id portClass frame = .pass
  sound : Sound cookies switch
  attributed : Attributed cookies switch

theorem hook_step (event : Event) (passing : ∀ id portClass frame, switch.hookAction id portClass frame = .pass) :
    (switch.step cookies event).1.hook = switch.hook := by
  cases event with
  | addStream portClass config registration =>
    simp only [step]
    rcases addStreamPort_cases switch cookies portClass config registration with plain | ⟨_, _, _, shape⟩
    · rw [plain]
      rfl
    · rw [shape]
      rfl
  | addChannel portClass mtu => rfl
  | remove port =>
    simp only [step, removePort]
    split <;> rfl
  | ingress port packet inserted => exact (ingressPacket_forwards passing).1.hook
  | skb port bytes insertOk =>
    simp only [step, skb]
    split <;> rfl
  | take port => exact takePacket_quiet.hook
  | close port => exact closeQueue_quiet.hook

theorem Segment.step {event : Event} (segment : Segment cookies switch)
    (primes : PrimesOwnPort cookies switch event) : Segment cookies (switch.step cookies event).1 ∧
      ∀ delivery ∈ (switch.step cookies event).2, Isolated switch delivery := by
  obtain ⟨passing, sound, attributed⟩ := segment
  have still : ∀ id portClass frame, (switch.step cookies event).1.hookAction id portClass frame = .pass := by
    intro id portClass frame
    rw [hookAction, hook_step event passing]
    exact passing id portClass frame
  cases event with
  | addStream portClass config registration =>
    exact ⟨⟨still, sound.addStreamPort portClass config registration,
      attributed.addStreamPort portClass config registration⟩, fun _ delivered => (nomatch delivered)⟩
  | addChannel portClass mtu =>
    exact ⟨⟨still, sound.attach portClass .frames _, attributed.attach portClass .frames _⟩,
      fun _ delivered => (nomatch delivered)⟩
  | remove port =>
    exact ⟨⟨still, sound.removePort port, attributed.removePort port⟩, fun _ delivered => (nomatch delivered)⟩
  | ingress port packet inserted =>
    have forwards : Forwards switch port (switch.ingressPacket port packet inserted) := ingressPacket_forwards passing
    refine ⟨⟨still, sound.quiet forwards.1, attributed.quiet forwards.1⟩, ?_⟩
    intro delivery delivered
    obtain ⟨own, other, _, _, permitted⟩ := forwards.2 delivery delivered
    exact permitted.isolated (own ▸ other)
  | skb port bytes insertOk =>
    obtain ⟨soundAfter, permitted⟩ := @Sound.skb cookies switch port sound bytes insertOk
    obtain ⟨attributedAfter, away⟩ := attributed.skb sound primes
    refine ⟨⟨still, soundAfter, attributedAfter⟩, ?_⟩
    intro delivery delivered
    obtain ⟨own, allowed⟩ := permitted delivery delivered
    exact allowed.isolated (own ▸ away delivery delivered)
  | take port =>
    exact ⟨⟨still, sound.quiet takePacket_quiet, attributed.quiet takePacket_quiet⟩,
      fun _ delivered => (nomatch delivered)⟩
  | close port =>
    exact ⟨⟨still, sound.quiet closeQueue_quiet, attributed.quiet closeQueue_quiet⟩,
      fun _ delivered => (nomatch delivered)⟩

def PrimesOwnPorts (cookies : Cookies) : Switch → List Event → Prop
  | _, [] => True
  | switch, event :: events =>
    PrimesOwnPort cookies switch event ∧ PrimesOwnPorts cookies (switch.step cookies event).1 events

instance (switch : Switch) (events : List Event) : Decidable (PrimesOwnPorts cookies switch events) :=
  decidePrimes switch events
where
  decidePrimes : (switch : Switch) → (events : List Event) → Decidable (PrimesOwnPorts cookies switch events)
    | _, [] => .isTrue trivial
    | switch, event :: events =>
      have := decidePrimes (switch.step cookies event).1 events
      inferInstanceAs (Decidable (PrimesOwnPort cookies switch event ∧
        PrimesOwnPorts cookies (switch.step cookies event).1 events))

theorem Segment.run {before rest : List Event} (segment : Segment cookies switch)
    (primes : PrimesOwnPorts cookies switch (before ++ rest)) :
    Segment cookies (switch.run cookies before) ∧ PrimesOwnPorts cookies (switch.run cookies before) rest := by
  induction before generalizing switch with
  | nil => exact ⟨segment, primes⟩
  | cons event before ih =>
    obtain ⟨now, later⟩ := primes
    exact ih (segment.step now).1 later

theorem Segment.start {hook : Option IngressHook}
    (passing : ∀ id portClass frame, (withFastpath hook).hookAction id portClass frame = .pass) :
    Segment cookies (withFastpath hook) := by
  refine ⟨passing, ⟨fun _ _ attached => (nomatch attached), ?_, ?_⟩, ?_⟩
  · rintro _ ⟨⟩ id member
    cases member
  · rintro _ ⟨⟩ id cookie kept
    cases kept
  · rintro _ ⟨⟩ id st stored
    cases stored

theorem Sound.writtenTo (sound : Sound cookies switch)
    (written : switch.writtenTo id = some target) : target = id := by
  unfold Switch.writtenTo at written
  split at written
  · cases written
    rfl
  rename_i offload active
  split at written
  · cases written
    rfl
  rename_i cookie kept
  split at written
  · rw [Engine.verdictTx, (sound.looped offload active id cookie kept).2] at written
    exact (Option.some.inj (Option.filter_eq_some_iff.mp written).1).symm
  · cases written

end

/-- In a run that starts without ports and in which every priming frame comes
from an address of its own port, each frame delivered on either path respects
the isolation of the ports and leaves through another port, and what is queued
for a port is written to that port. -/
theorem deliveries_isolated (cookies : Cookies) (hook : Option IngressHook) (events : List Event)
    (passing : ∀ id portClass frame, (withFastpath hook).hookAction id portClass frame = .pass)
    (primes : PrimesOwnPorts cookies (withFastpath hook) events)
    (before after : List Event) (event : Event) (cut : events = before ++ event :: after) :
    (∀ delivery ∈ (((withFastpath hook).run cookies before).step cookies event).2,
      Isolated ((withFastpath hook).run cookies before) delivery) ∧
    ∀ id target, ((withFastpath hook).run cookies before).writtenTo id = some target → target = id := by
  rw [cut] at primes
  obtain ⟨segment, now, _⟩ := (Segment.start passing).run primes
  exact ⟨(segment.step now).2, fun _ _ written => segment.sound.writtenTo written⟩

def countedCookies : Cookies where
  sender id := id + 1
  loopback id := id + 1
  sender_distinct same _ := Nat.succ.inj same
  loopback_distinct same := Nat.succ.inj same
  loopback_ne_zero id := Nat.succ_ne_zero id

def guestMac (last : UInt8) : MacAddr := .ofOctets 0x52 0x54 0 0 0 last

def guestFrame (dst src : UInt8) : List UInt8 := ethBuild (guestMac dst) (guestMac src) ethertypeIpv4 [0, 1, 2, 3]

def sends (port : PortId) (dst src : UInt8) : List Event :=
  [.skb port (encode 4 (guestFrame dst src)) true,
    .ingress port (Packet.raw (guestFrame dst src)) true]

def twoGuests : List Event :=
  [.addStream (.guest false) .default .registered, .addStream (.guest false) .default .registered] ++
    sends 0 2 1 ++ sends 1 1 2

/-- The first guest answers the second in the kernel. -/
theorem deliveries_isolated_between_two_guests :
    (((withFastpath none).run countedCookies twoGuests).step countedCookies
        (.skb 0 (encode 4 (guestFrame 2 1)) true)).2 = [⟨0, 1, guestFrame 2 1⟩] ∧
      Isolated ((withFastpath none).run countedCookies twoGuests) ⟨0, 1, guestFrame 2 1⟩ := by
  have delivered : (((withFastpath none).run countedCookies twoGuests).step countedCookies
      (.skb 0 (encode 4 (guestFrame 2 1)) true)).2 = [⟨0, 1, guestFrame 2 1⟩] := by
    decide +kernel
  have primes : PrimesOwnPorts countedCookies (withFastpath none)
      (twoGuests ++ [.skb 0 (encode 4 (guestFrame 2 1)) true]) := by
    decide +kernel
  exact ⟨delivered, (deliveries_isolated countedCookies none _ (fun _ _ _ => rfl) primes twoGuests [] _ rfl).1 _
    (delivered ▸ mem_singleton_self _)⟩

/-- The first guest uses the address of the second before its own stream has a
state. The kernel takes the stream for the second guest's and sends the frame
back out of the port it came from. -/
theorem deliveries_isolated_fails_for_spoofed_source :
    ¬∀ (cookies : Cookies) (hook : Option IngressHook) (events : List Event) (event : Event),
      (∀ id portClass frame, (withFastpath hook).hookAction id portClass frame = .pass) →
      ∀ delivery ∈ (((withFastpath hook).run cookies events).step cookies event).2,
        Isolated ((withFastpath hook).run cookies events) delivery := by
  intro claim
  have delivered : (((withFastpath none).run countedCookies twoGuests).step countedCookies
      (.skb 0 (encode 4 (guestFrame 1 2)) true)).2 = [⟨0, 0, guestFrame 1 2⟩] := by
    decide +kernel
  have echoed := claim countedCookies none twoGuests (.skb 0 (encode 4 (guestFrame 1 2)) true)
    (fun _ _ _ => rfl) ⟨0, 0, guestFrame 1 2⟩ (delivered ▸ mem_singleton_self _)
  exact echoed.away rfl

end Switch

end Vmlab.Net
