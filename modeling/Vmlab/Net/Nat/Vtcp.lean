import Vmlab.Library.SortedMap
import Vmlab.Net.Frame

/-!
# The virtual TCP endpoint

One flow of the in-process TCP peer that terminates guest connections, and the proxy loop around it
(`src/net/nat/vtcp.rs`). Instants are milliseconds; what the flow emits is collected as header fields and payloads.
-/

namespace Vmlab.Net.Nat

open Library

def rto : Nat := 1000
def maxRetries : Nat := 5
def idleTimeout : Nat := 300000
def advertisedWindow : UInt16 := 0xFFFF
def oooMaxBytes : Nat := advertisedWindow.toNat

structure Segment where
  seq : BitVec 32
  ack : BitVec 32
  flags : UInt8
  window : UInt16
  payload : List UInt8
  mss : Option UInt16
  sized : payload.length < 2 ^ 16

namespace Segment

def isSyn (seg : Segment) : Bool := seg.flags &&& tcpSyn ≠ 0
def isAck (seg : Segment) : Bool := seg.flags &&& tcpAck ≠ 0
def isRst (seg : Segment) : Bool := seg.flags &&& tcpRst ≠ 0
def isFin (seg : Segment) : Bool := seg.flags &&& tcpFin ≠ 0

end Segment

def seqLe (a b : BitVec 32) : Bool := serialLe a b

structure Emitted where
  seq : BitVec 32
  ack : BitVec 32
  flags : UInt8
  payload : List UInt8
  options : List UInt8

structure TxSeg where
  seq : BitVec 32
  data : List UInt8
  fin : Bool

def TxSeg.end (seg : TxSeg) : BitVec 32 := seg.seq + BitVec.ofNat 32 seg.data.length + BitVec.ofNat 32 seg.fin.toNat

structure Flow where
  sndNxt : BitVec 32
  sndUna : BitVec 32
  rcvNxt : BitVec 32
  peerWnd : Nat
  mss : Nat
  unacked : List TxSeg
  ooo : SortedMap (BitVec 32) (List UInt8)
  oooBytes : Nat
  retries : Nat
  rtoAt : Option Nat
  lastActivity : Nat
  ourFinSent : Bool
  guestFinRcvd : Bool

namespace Flow

def mssClamp (mtu : UInt16) : Nat := max (mtu.toNat - 40) 536

/-- A passive flow, from the guest's SYN and our random initial number. -/
def new (mtu : UInt16) (isn : BitVec 32) (now : Nat) (syn : Segment) : Flow where
  sndNxt := isn
  sndUna := isn
  rcvNxt := syn.seq + 1
  peerWnd := syn.window.toNat
  mss := match syn.mss with
    | some mss => min (mssClamp mtu) mss.toNat
    | none => mssClamp mtu
  unacked := []
  ooo := .empty
  oooBytes := 0
  retries := 0
  rtoAt := none
  lastActivity := now
  ourFinSent := false
  guestFinRcvd := false

def establishPassive (flow : Flow) (seg : Segment) : Flow :=
  { flow with
    sndNxt := flow.sndNxt + 1
    sndUna := flow.sndNxt + 1
    peerWnd := seg.window.toNat
    retries := 0
    rtoAt := none }

def newActive (mtu : UInt16) (isn : BitVec 32) (now : Nat) : Flow where
  sndNxt := isn
  sndUna := isn
  rcvNxt := 0
  peerWnd := 0
  mss := mssClamp mtu
  unacked := []
  ooo := .empty
  oooBytes := 0
  retries := 0
  rtoAt := none
  lastActivity := now
  ourFinSent := false
  guestFinRcvd := false

def establishActive (flow : Flow) (synAck : Segment) : Flow :=
  { flow with
    sndNxt := flow.sndNxt + 1
    sndUna := flow.sndNxt + 1
    rcvNxt := synAck.seq + 1
    peerWnd := synAck.window.toNat
    mss := match synAck.mss with
      | some mss => min flow.mss mss.toNat
      | none => flow.mss
    retries := 0
    rtoAt := none }

def sendAck (flow : Flow) : Emitted :=
  { seq := flow.sndNxt, ack := flow.rcvNxt, flags := tcpAck, payload := [], options := [] }

def sendRst (flow : Flow) : Emitted :=
  { seq := flow.sndNxt, ack := flow.rcvNxt, flags := tcpRst ||| tcpAck, payload := [], options := [] }

def dataFlags (data : List UInt8) (fin : Bool) : UInt8 :=
  tcpAck ||| (if data = [] then 0 else tcpPsh) ||| (if fin then tcpFin else 0)

section

variable (flow : Flow)

def sendData (now : Nat) (data : List UInt8) (fin : Bool) : Flow × Emitted :=
  let seg : TxSeg := { seq := flow.sndNxt, data, fin }
  ({ flow with
      sndNxt := seg.end
      unacked := flow.unacked ++ [seg]
      rtoAt := if flow.rtoAt.isNone then some (now + rto) else flow.rtoAt },
    { seq := flow.sndNxt, ack := flow.rcvNxt, flags := dataFlags data fin, payload := data, options := [] })

def inFlight : Nat := (flow.sndNxt - flow.sndUna).toNat

def sendAllowance : Nat :=
  let usable := flow.peerWnd - flow.inFlight
  let segment := min flow.mss flow.peerWnd
  if usable = 0 ∨ usable < segment then 0 else min usable flow.mss

def sendWindowProbe : Emitted :=
  { seq := flow.sndNxt - 1, ack := flow.rcvNxt, flags := tcpAck, payload := [], options := [] }

def onAck (now : Nat) (seg : Segment) : Flow :=
  if seg.isAck then
    let flow := { flow with peerWnd := seg.window.toNat }
    if seg.ack - flow.sndUna = 0 ∨ flow.sndNxt - flow.sndUna < seg.ack - flow.sndUna then flow
    else
      let unacked := flow.unacked.dropWhile fun front => seqLe front.end seg.ack
      { flow with
        sndUna := seg.ack
        unacked
        retries := 0
        rtoAt := if unacked = [] then none else some (now + rto) }
  else flow

def onRto (now : Nat) : Flow × List Emitted × Bool :=
  let flow := { flow with retries := flow.retries + 1 }
  if maxRetries < flow.retries then (flow, [flow.sendRst], false)
  else
    let sent := match flow.unacked.head? with
      | some seg =>
        [{ seq := seg.seq, ack := flow.rcvNxt, flags := dataFlags seg.data seg.fin
           payload := seg.data, options := [] }]
      | none => []
    ({ flow with rtoAt := some (now + rto) }, sent, true)

end

def trimOoo : Nat → Flow → Flow
  | 0, flow => flow
  | fuel + 1, flow =>
    if oooMaxBytes < flow.oooBytes then
      match flow.ooo.first? with
      | none => flow
      | some (oldest, dropped) =>
        trimOoo fuel
          { flow with ooo := flow.ooo.erase oldest, oooBytes := flow.oooBytes - dropped.length }
    else flow

def queueOoo (flow : Flow) (seq : BitVec 32) (payload : List UInt8) : Flow :=
  if oooMaxBytes < payload.length then flow
  else
    match flow.ooo.get? seq with
    | some existing =>
      if payload.length ≤ existing.length then flow
      else insertOoo { flow with oooBytes := flow.oooBytes - existing.length }
    | none => insertOoo flow
where
  insertOoo (flow : Flow) : Flow :=
    let ooo := flow.ooo.insert seq payload
    trimOoo ooo.size { flow with ooo, oooBytes := flow.oooBytes + payload.length }

def closedBothWays (flow : Flow) : Bool := flow.guestFinRcvd ∧ flow.ourFinSent ∧ flow.sndUna = flow.sndNxt

end Flow

structure Peer where
  passed : List UInt8
  ended : Bool
  room : Option Nat

def Peer.writeAll (peer : Peer) (bytes : List UInt8) : Peer × Bool :=
  match peer.room with
  | none => ({ peer with passed := peer.passed ++ bytes }, true)
  | some room =>
    if bytes.length ≤ room then
      ({ peer with passed := peer.passed ++ bytes, room := some (room - bytes.length) }, true)
    else ({ peer with passed := peer.passed ++ bytes.take room, room := some 0 }, false)

def sliceFrom? (bytes : List UInt8) (start : Nat) : Option (List UInt8) :=
  if start ≤ bytes.length then some (bytes.drop start) else none

structure Established where
  flow : Flow
  peer : Peer
  wrOpen : Bool
  rdDone : Bool
  alive : Bool
  sent : List Emitted

namespace Established

def start (flow : Flow) (room : Option Nat) : Established where
  flow
  peer := { passed := [], ended := false, room }
  wrOpen := true
  rdDone := false
  alive := true
  sent := []

section

variable (state : Established)

def emit (segment : Emitted) : Established := { state with sent := state.sent ++ [segment] }

def reset : Established := { state.emit state.flow.sendRst with alive := false }

def accept (fresh : List UInt8) : Established :=
  let advance (state : Established) : Established :=
    { state with
      flow := { state.flow with rcvNxt := state.flow.rcvNxt + BitVec.ofNat 32 fresh.length } }
  if state.wrOpen then
    let (peer, written) := state.peer.writeAll fresh
    if written then advance { state with peer } else reset { state with peer }
  else advance state

end

def dropStale (flow : Flow) : Flow :=
  let stale := flow.ooo.filter fun entry =>
    seqLe (entry.1 + BitVec.ofNat 32 entry.2.length) flow.rcvNxt
  { flow with
    ooo := flow.ooo.filter fun entry =>
      !seqLe (entry.1 + BitVec.ofNat 32 entry.2.length) flow.rcvNxt
    oooBytes := flow.oooBytes - stale.total List.length }

def drainOoo : Nat → Established → Option Established
  | 0, _ => none
  | fuel + 1, state =>
    let state := { state with flow := dropStale state.flow }
    match state.flow.ooo.entries.find? fun entry => seqLe entry.1 state.flow.rcvNxt with
    | none => some state
    | some (seq, payload) => do
        let fresh ← sliceFrom? payload (state.flow.rcvNxt - seq).toNat
        let state := { state with
          flow := { state.flow with
            ooo := state.flow.ooo.erase seq
            oooBytes := state.flow.oooBytes - payload.length } }
        let state := state.accept fresh
        if state.alive then drainOoo fuel state else some state

section

variable (state : Established)

def onPayload (seg : Segment) : Option Established :=
  if seg.payload = [] then some state
  else if seqLe seg.seq state.flow.rcvNxt then
    let off := state.flow.rcvNxt - seg.seq
    if off.toNat < seg.payload.length then do
      let fresh ← sliceFrom? seg.payload off.toNat
      let state := state.accept fresh
      if state.alive then drainOoo (state.flow.ooo.size + 1) state else some state
    else some state
  else some { state with flow := state.flow.queueOoo seg.seq seg.payload }

def onFin (seg : Segment) : Established :=
  if seg.isFin ∧ seg.seq + BitVec.ofNat 32 seg.payload.length = state.flow.rcvNxt ∧
      state.flow.guestFinRcvd = false then
    { state with
      flow := { state.flow with rcvNxt := state.flow.rcvNxt + 1, guestFinRcvd := true }
      peer := if state.wrOpen then { state.peer with ended := true } else state.peer
      wrOpen := false }
  else state

def onSegment (now : Nat) (seg : Segment) : Option Established :=
  if seg.isRst then some { state with alive := false }
  else do
    let state := { state with flow := { state.flow with lastActivity := now }.onAck now seg }
    let state ← state.onPayload seg
    if state.alive then
      let state := state.onFin seg
      if seg.payload ≠ [] ∨ seg.isFin then some (state.emit state.flow.sendAck) else some state
    else some state

end

inductive Event where
  | segment (seg : Segment)
  | read (data : List UInt8)
  | probe
  | timeout
  | idle

def sending (state : Established) : Bool := !state.rdDone && !state.flow.ourFinSent

/-- One round of the loop. An event whose branch is disabled changes nothing. -/
def step (state : Established) (now : Nat) (event : Event) : Option Established :=
  if state.alive = false then some state
  else if state.flow.closedBothWays then some { state with alive := false }
  else
    match event with
    | .segment seg => state.onSegment now seg
    | .read data =>
      if state.sending ∧ 0 < state.flow.sendAllowance ∧ state.flow.unacked.length < 64 ∧
          data.length ≤ state.flow.sendAllowance then
        if data = [] then
          let (flow, segment) := { state.flow with ourFinSent := true }.sendData now [] true
          some ({ state with flow, rdDone := true }.emit segment)
        else
          let (flow, segment) := state.flow.sendData now data false
          some ({ state with flow }.emit segment)
      else some state
    | .probe =>
      if state.sending ∧ state.flow.sendAllowance = 0 ∧ state.flow.unacked = [] then
        some (state.emit state.flow.sendWindowProbe)
      else some state
    | .timeout =>
      match state.flow.rtoAt with
      | some deadline =>
        if deadline ≤ now then
          let (flow, segments, goOn) := state.flow.onRto now
          some { state with flow, sent := state.sent ++ segments, alive := goOn }
        else some state
      | none => some state
    | .idle =>
      if state.flow.lastActivity + idleTimeout ≤ now then some state.reset else some state

def run (state : Established) : List (Nat × Event) → Option Established
  | [] => some state
  | (now, event) :: rest => do
      let state ← state.step now event
      state.run rest

end Established

/-! ## Our own stream, in positions from the byte behind our SYN, and the guest's largest right edge -/

open List

def Emitted.isFin (sent : Emitted) : Bool := sent.flags &&& tcpFin ≠ 0

def Emitted.isData (sent : Emitted) : Bool := sent.payload ≠ [] ∨ sent.isFin

def Emitted.end (sent : Emitted) : BitVec 32 :=
  sent.seq + BitVec.ofNat 32 sent.payload.length + BitVec.ofNat 32 sent.isFin.toNat

def Established.dataSent (state : Established) : List Emitted := state.sent.filter Emitted.isData

/-- A flow, the position of its `sndNxt`, and the largest right edge that a
guest segment advertised to it so far. -/
structure Watch where
  state : Established
  pos : Nat
  edge : Int

namespace Watch

def place (watch : Watch) (number : BitVec 32) : Int := watch.pos - (watch.state.flow.sndNxt - number).toInt

/-- The acknowledgement number plus the window. No window is scaled, as the
endpoint does not offer the option. -/
def rightEdge (watch : Watch) (seg : Segment) : Int := watch.place seg.ack + seg.window.toNat

def edgeAfter (watch : Watch) : Established.Event → Int
  | .segment seg => if seg.isAck then max watch.edge (watch.rightEdge seg) else watch.edge
  | _ => watch.edge

def step (watch : Watch) (now : Nat) (event : Established.Event) : Option Watch :=
  (watch.state.step now event).map fun state =>
    { state
      pos := watch.pos + (state.flow.sndNxt - watch.state.flow.sndNxt).toNat
      edge := watch.edgeAfter event }

/-- What a step sent of our stream, new or again, ends at or before the
largest right edge. -/
def Within (watch after : Watch) : Prop :=
  ∀ sent ∈ after.state.dataSent.drop watch.state.dataSent.length, after.place sent.end ≤ after.edge

instance (watch after : Watch) : Decidable (watch.Within after) := inferInstanceAs (Decidable (∀ sent ∈ _, _))

def AlwaysWithin : Watch → List (Nat × Established.Event) → Prop
  | _, [] => True
  | watch, (now, event) :: rest =>
    ∀ after, watch.step now event = some after → watch.Within after ∧ after.AlwaysWithin rest

instance : (watch : Watch) → (events : List (Nat × Established.Event)) → Decidable (watch.AlwaysWithin events)
  | _, [] => isTrue trivial
  | watch, (now, event) :: rest =>
    match stepped : watch.step now event with
    | none => isTrue fun after same => by rw [stepped] at same; cases same
    | some after =>
      have := instDecidableAlwaysWithin after rest
      decidable_of_iff (watch.Within after ∧ after.AlwaysWithin rest)
        ⟨fun holds _ same => Option.some.inj (stepped.symm.trans same) ▸ holds, fun holds => holds after stepped⟩

/-- A segment that acknowledges less than an earlier one did states a window
that, from what was acknowledged meanwhile, stays within the largest edge. -/
def Tame (watch : Watch) : Established.Event → Prop
  | .segment seg =>
    seg.isAck = true → watch.place seg.ack < watch.place watch.state.flow.sndUna →
      watch.place watch.state.flow.sndUna + seg.window.toNat ≤ watch.edge
  | _ => True

instance (watch : Watch) (event : Established.Event) : Decidable (watch.Tame event) := by
  cases event <;> unfold Tame <;> infer_instance

def AlwaysTame : Watch → List (Nat × Established.Event) → Prop
  | _, [] => True
  | watch, (now, event) :: rest =>
    watch.Tame event ∧ ∀ after, watch.step now event = some after → after.AlwaysTame rest

instance : (watch : Watch) → (events : List (Nat × Established.Event)) → Decidable (watch.AlwaysTame events)
  | _, [] => isTrue trivial
  | watch, (now, event) :: rest =>
    match stepped : watch.step now event with
    | none =>
      decidable_of_iff (watch.Tame event)
        ⟨fun tame => ⟨tame, fun _ same => by rw [stepped] at same; cases same⟩, And.left⟩
    | some after =>
      have := instDecidableAlwaysTame after rest
      decidable_of_iff (watch.Tame event ∧ after.AlwaysTame rest)
        ⟨fun holds => ⟨holds.1, fun _ same => Option.some.inj (stepped.symm.trans same) ▸ holds.2⟩,
          fun holds => ⟨holds.1, holds.2 after stepped⟩⟩

end Watch

inductive Greeted : Flow → Segment → Prop where
  | passive (mtu : UInt16) (isn : BitVec 32) (now : Nat) (syn seg : Segment) (isAck : seg.isAck = true)
      (acks : seg.ack = isn + 1) : Greeted ((Flow.new mtu isn now syn).establishPassive seg) seg
  | active (mtu : UInt16) (isn : BitVec 32) (now : Nat) (synAck : Segment) (isAck : synAck.isAck = true)
      (acks : synAck.ack = isn + 1) : Greeted ((Flow.newActive mtu isn now).establishActive synAck) synAck

def Watch.start (flow : Flow) (greeting : Segment) (room : Option Nat) : Watch where
  state := Established.start flow room
  pos := 0
  edge := greeting.window.toNat

/-! ## What a step does to the sending side -/

def Flow.sendSide (flow : Flow) : BitVec 32 × BitVec 32 × Nat × List TxSeg :=
  (flow.sndNxt, flow.sndUna, flow.peerWnd, flow.unacked)

theorem sendSide_eq {flow : Flow} {sndNxt sndUna : BitVec 32} {peerWnd : Nat} {unacked : List TxSeg} :
    flow.sendSide = (sndNxt, sndUna, peerWnd, unacked) ↔
      flow.sndNxt = sndNxt ∧ flow.sndUna = sndUna ∧ flow.peerWnd = peerWnd ∧ flow.unacked = unacked := by
  simp [Flow.sendSide]

def Established.outgoing (state : Established) : (BitVec 32 × BitVec 32 × Nat × List TxSeg) × List Emitted :=
  (state.flow.sendSide, state.dataSent)

variable {seg : Segment} {now : Nat}

section

variable {state other : Established}

theorem isData_of_control {segment : Emitted} (payload : segment.payload = [])
    (flags : segment.flags = tcpAck ∨ segment.flags = tcpRst ||| tcpAck) : segment.isData = false := by
  rw [Emitted.isData, Emitted.isFin, payload]
  rcases flags with flags | flags <;> rw [flags] <;> decide

theorem outgoing_of_control {segment : Emitted} (sent : other.sent = state.sent ++ [segment])
    (side : other.flow.sendSide = state.flow.sendSide) (payload : segment.payload = [])
    (flags : segment.flags = tcpAck ∨ segment.flags = tcpRst ||| tcpAck) : other.outgoing = state.outgoing := by
  have control := isData_of_control payload flags
  rw [Established.outgoing, Established.outgoing, side, Established.dataSent, sent, filter_append,
    filter_cons_of_neg (by simp [control]), filter_nil, append_nil, Established.dataSent]

theorem trimOoo_sendSide (fuel : Nat) (flow : Flow) : (flow.trimOoo fuel).sendSide = flow.sendSide := by
  induction fuel generalizing flow with
  | zero => rfl
  | succ fuel ih =>
    rw [Flow.trimOoo]
    split
    · split
      · rfl
      · exact ih _
    · rfl

theorem queueOoo_sendSide (flow : Flow) (seq : BitVec 32) (payload : List UInt8) :
    (flow.queueOoo seq payload).sendSide = flow.sendSide := by
  rw [Flow.queueOoo]
  split
  · rfl
  split
  · split
    · rfl
    · exact trimOoo_sendSide ..
  · exact trimOoo_sendSide ..

theorem accept_outgoing (state : Established) (fresh : List UInt8) :
    (state.accept fresh).outgoing = state.outgoing := by
  rw [Established.accept]
  split
  · dsimp only
    split
    · rfl
    · exact outgoing_of_control rfl rfl rfl (.inr rfl)
  · rfl

theorem drainOoo_outgoing {fuel : Nat} (drained : Established.drainOoo fuel state = some other) :
    other.outgoing = state.outgoing := by
  induction fuel generalizing state with
  | zero => cases drained
  | succ fuel ih =>
    rw [Established.drainOoo] at drained
    dsimp only at drained
    split at drained
    · cases drained
      rfl
    obtain ⟨fresh, _, drained⟩ := Option.bind_eq_some_iff.mp drained
    split at drained
    · exact (ih drained).trans (accept_outgoing ..)
    · cases drained
      exact accept_outgoing ..

theorem onPayload_outgoing (passed : state.onPayload seg = some other) : other.outgoing = state.outgoing := by
  rw [Established.onPayload] at passed
  split at passed
  · cases passed
    rfl
  split at passed
  · dsimp only at passed
    split at passed
    · obtain ⟨fresh, _, passed⟩ := Option.bind_eq_some_iff.mp passed
      split at passed
      · exact (drainOoo_outgoing passed).trans (accept_outgoing ..)
      · cases passed
        exact accept_outgoing ..
    · cases passed
      rfl
  · cases passed
    exact congrArg (·, state.dataSent) (queueOoo_sendSide ..)

theorem onFin_outgoing (state : Established) (seg : Segment) : (state.onFin seg).outgoing = state.outgoing := by
  rw [Established.onFin]
  split <;> rfl

end

/-- What one round can do to the sending side: nothing, take in an
acknowledgement, send new data or a FIN, or send the oldest segment again. -/
inductive Sends (state : Established) (event : Established.Event) (other : Established) : Prop where
  | quiet (same : other.outgoing = state.outgoing)
  | heard (seg : Segment) (shape : event = .segment seg) (flow : Flow) (now : Nat)
      (side : flow.sendSide = state.flow.sendSide)
      (same : other.outgoing = ((flow.onAck now seg).sendSide, state.dataSent))
  | sent (seg : TxSeg) (next : seg.seq = state.flow.sndNxt)
      (some : 0 < seg.data.length + seg.fin.toNat)
      (allowed : seg.data.length + seg.fin.toNat ≤ state.flow.sendAllowance)
      (few : state.flow.unacked.length < 64)
      (side : other.flow.sendSide = (seg.end, state.flow.sndUna, state.flow.peerWnd, state.flow.unacked ++ [seg]))
      (sent : Emitted) (same : sent.end = seg.end) (appended : other.sent = state.sent ++ [sent])
  | again (seg : TxSeg) (oldest : state.flow.unacked.head? = some seg)
      (side : other.flow.sendSide = state.flow.sendSide)
      (sent : Emitted) (same : sent.end = seg.end) (appended : other.sent = state.sent ++ [sent])

theorem isFin_dataFlags {sent : Emitted} {data : List UInt8} {fin : Bool}
    (flags : sent.flags = Flow.dataFlags data fin) : sent.isFin = fin := by
  rw [Emitted.isFin, flags, Flow.dataFlags]
  cases fin <;> split <;> decide

theorem end_of_dataFlags {sent : Emitted} {seg : TxSeg} (seq : sent.seq = seg.seq)
    (payload : sent.payload = seg.data) (flags : sent.flags = Flow.dataFlags seg.data seg.fin) :
    sent.end = seg.end := by
  rw [Emitted.end, TxSeg.end, isFin_dataFlags flags, seq, payload]

section

variable {state other : Established}

theorem onSegment_sends (stepped : state.onSegment now seg = some other) : Sends state (.segment seg) other := by
  rw [Established.onSegment] at stepped
  split at stepped
  · cases stepped
    exact .quiet rfl
  obtain ⟨passed, onPayload, stepped⟩ := Option.bind_eq_some_iff.mp stepped
  refine .heard seg rfl { state.flow with lastActivity := now } now rfl ?_
  refine Eq.trans ?_ (onPayload_outgoing onPayload)
  split at stepped
  · have finished := onFin_outgoing passed seg
    dsimp only at stepped
    split at stepped
    · cases stepped
      refine Eq.trans ?_ finished
      exact outgoing_of_control rfl rfl rfl (.inl rfl)
    · cases stepped
      exact finished
  · cases stepped
    rfl

theorem step_sends {event : Established.Event} (stepped : state.step now event = some other) :
    Sends state event other := by
  unfold Established.step at stepped
  split at stepped
  · cases stepped
    exact .quiet rfl
  split at stepped
  · cases stepped
    exact .quiet rfl
  have still : Sends state event state := .quiet rfl
  cases event with
  | segment seg => exact onSegment_sends stepped
  | read data =>
    dsimp only at stepped
    split at stepped
    · next may =>
      obtain ⟨_, positive, few, fits⟩ := may
      split at stepped
      · cases stepped
        exact .sent ⟨state.flow.sndNxt, [], true⟩ rfl Nat.one_pos positive few rfl _ (end_of_dataFlags rfl rfl rfl) rfl
      · next some =>
        cases stepped
        exact .sent ⟨state.flow.sndNxt, data, false⟩ rfl (length_pos_iff.mpr some) fits few rfl _ (end_of_dataFlags rfl rfl rfl) rfl
    · cases stepped
      exact still
  | probe =>
    dsimp only at stepped
    split at stepped
    · cases stepped
      exact .quiet (outgoing_of_control rfl rfl rfl (.inl rfl))
    · cases stepped
      exact still
  | timeout =>
    dsimp only at stepped
    split at stepped
    · split at stepped
      · rw [Flow.onRto] at stepped
        dsimp only at stepped
        split at stepped
        · cases stepped
          exact .quiet (outgoing_of_control rfl rfl rfl (.inr rfl))
        split at stepped
        · next seg oldest =>
          cases stepped
          exact .again seg oldest rfl _ (end_of_dataFlags rfl rfl rfl) rfl
        · cases stepped
          exact .quiet (by rw [append_nil]; rfl)
      · cases stepped
        exact still
    · cases stepped
      exact still
  | idle =>
    dsimp only at stepped
    split at stepped
    · cases stepped
      exact .quiet (outgoing_of_control rfl rfl rfl (.inr rfl))
    · cases stepped
      exact still

end

/-! ## The invariant -/

/-- The segments that wait for an acknowledgement end at or before `next`,
each by at most what the later ones hold. -/
inductive Queued (next : BitVec 32) : List TxSeg → Prop where
  | nil : Queued next []
  | cons {seg : TxSeg} {rest : List TxSeg} (near : (next - seg.end).toNat ≤ 65536 * rest.length)
      (later : Queued next rest) : Queued next (seg :: rest)

section

variable {next : BitVec 32} {segs : List TxSeg} (queued : Queued next segs)
include queued

theorem Queued.dropWhile (acked : TxSeg → Bool) : Queued next (segs.dropWhile acked) := by
  induction queued with
  | nil => exact .nil
  | @cons seg rest near later ih =>
    rw [dropWhile_cons]
    split
    · exact ih
    · exact .cons near later

theorem Queued.append {seg : TxSeg} (near : (seg.end - next).toNat ≤ 65536) : Queued seg.end (segs ++ [seg]) := by
  induction queued with
  | nil => exact .cons (by simp) .nil
  | @cons first rest close later ih =>
    rw [cons_append]
    refine .cons ?_ ih
    have step : seg.end - first.end = (next - first.end) + (seg.end - next) := by bv_omega
    have sum := BitVec.toNat_add (next - first.end) (seg.end - next)
    rw [step, sum, length_append, length_singleton]
    omega

end

theorem Flow.sendAllowance_le (flow : Flow) : flow.sendAllowance ≤ flow.peerWnd - flow.inFlight := by
  rw [Flow.sendAllowance]
  split <;> omega

structure Covered (flow : Flow) (pos : Nat) (edge : Int) : Prop where
  flight : flow.inFlight ≤ 65535
  window : flow.peerWnd ≤ 65535
  reached : (pos : Int) ≤ edge
  allowed : (pos : Int) - flow.inFlight + flow.peerWnd ≤ edge
  short : flow.unacked.length ≤ 64
  queued : Queued flow.sndNxt flow.unacked

section

variable {flow other : Flow} {pos : Nat} {edge : Int}

theorem Covered.of_same (covered : Covered flow pos edge) (side : other.sendSide = flow.sendSide) {edge' : Int}
    (grown : edge ≤ edge') : Covered other pos edge' := by
  obtain ⟨sndNxt, sndUna, peerWnd, unacked⟩ := sendSide_eq.mp side
  have flight : other.inFlight = flow.inFlight := by rw [Flow.inFlight, Flow.inFlight, sndNxt, sndUna]
  have allowed := covered.allowed
  refine ⟨?_, ?_, covered.reached.trans grown, ?_, ?_, ?_⟩
  · rw [flight]
    exact covered.flight
  · rw [peerWnd]
    exact covered.window
  · rw [flight, peerWnd]
    omega
  · rw [unacked]
    exact covered.short
  · rw [sndNxt, unacked]
    exact covered.queued

theorem toInt_of_near {number : BitVec 32} (near : number.toNat < 2 ^ 31) : number.toInt = number.toNat :=
  BitVec.toInt_eq_toNat_of_lt (by omega)

/-- The window counts from the acknowledgement number where that one is taken
over, so the segment's own right edge covers it; otherwise from `sndUna`. -/
theorem Covered.onAck (covered : Covered flow pos edge) (now : Nat) (isAck : seg.isAck = true)
    (tame : (pos : Int) - (flow.sndNxt - seg.ack).toInt < pos - flow.inFlight →
    (pos : Int) - flow.inFlight + seg.window.toNat ≤ edge) :
    Covered (flow.onAck now seg) pos (max edge (pos - (flow.sndNxt - seg.ack).toInt + seg.window.toNat)) := by
  have flight := covered.flight
  have reached := covered.reached
  have window : seg.window.toNat ≤ 65535 := Nat.le_of_lt_succ seg.window.toNat_lt
  have behind : (flow.sndNxt - seg.ack).toNat =
      (flow.inFlight + 2 ^ 32 - (seg.ack - flow.sndUna).toNat) % 2 ^ 32 := by
    rw [Flow.inFlight]
    bv_omega
  have signed := BitVec.toInt_eq_toNat_cond (flow.sndNxt - seg.ack)
  have bound := (seg.ack - flow.sndUna).isLt
  rw [Flow.onAck, if_pos isAck]
  dsimp only
  split
  · next refused =>
    have allowed : (pos : Int) - flow.inFlight + seg.window.toNat ≤
        max edge (pos - (flow.sndNxt - seg.ack).toInt + seg.window.toNat) := by
      rcases refused with same | outside
      · rw [same] at behind
        have zero : (0 : BitVec 32).toNat = 0 := rfl
        split at signed <;> omega
      · have outside : flow.inFlight < (seg.ack - flow.sndUna).toNat := outside
        split at signed <;> omega
    exact ⟨flight, window, by omega, allowed, covered.short, covered.queued⟩
  · next taken =>
    obtain ⟨_, inside⟩ := not_or.mp taken
    have inside : (seg.ack - flow.sndUna).toNat ≤ flow.inFlight := Nat.le_of_not_lt inside
    have short : ((flow.unacked.dropWhile fun front => seqLe front.end seg.ack)).length ≤
        flow.unacked.length := (dropWhile_sublist _).length_le
    have near : (flow.sndNxt - seg.ack).toNat ≤ 65535 := by omega
    have exactly := @toInt_of_near (flow.sndNxt - seg.ack) (by omega)
    refine ⟨near, window, ?_, ?_, short.trans covered.short, covered.queued.dropWhile _⟩
    · omega
    · rw [exactly]
      exact le_max_right ..

theorem Covered.sent (covered : Covered flow pos edge) {seg : TxSeg} (next : seg.seq = flow.sndNxt)
    (allowed : seg.data.length + seg.fin.toNat ≤ flow.sendAllowance) (few : flow.unacked.length < 64)
    (side : other.sendSide = (seg.end, flow.sndUna, flow.peerWnd, flow.unacked ++ [seg])) :
    Covered other (pos + (seg.end - flow.sndNxt).toNat) edge := by
  obtain ⟨sndNxt, sndUna, peerWnd, unacked⟩ := sendSide_eq.mp side
  have reach := covered.allowed
  have window := covered.window
  have reached := covered.reached
  have room := allowed.trans flow.sendAllowance_le
  have advance : (seg.end - flow.sndNxt).toNat = seg.data.length + seg.fin.toNat := by
    rw [TxSeg.end, next]
    bv_omega
  have flight : other.inFlight = flow.inFlight + (seg.data.length + seg.fin.toNat) := by
    have flight := covered.flight
    rw [Flow.inFlight] at flight room
    rw [Flow.inFlight, Flow.inFlight, sndNxt, sndUna, TxSeg.end, next]
    bv_omega
  refine ⟨?_, ?_, ?_, ?_, ?_, ?_⟩
  · rw [flight]
    have := covered.flight
    omega
  · rw [peerWnd]
    exact window
  · rw [advance]
    push_cast
    omega
  · rw [advance, flight, peerWnd]
    push_cast
    omega
  · rw [unacked, length_append, length_singleton]
    omega
  · rw [sndNxt, unacked]
    exact covered.queued.append (by omega)

end

/-! ## Whole runs -/

section

variable {watch after : Watch}

theorem within_of_appended {sent : Emitted} (appended : after.state.sent = watch.state.sent ++ [sent])
    (ends : after.place sent.end ≤ after.edge) : watch.Within after := by
  intro other member
  rw [Established.dataSent, Established.dataSent, appended, filter_append, drop_left] at member
  rw [mem_singleton.mp (mem_of_mem_filter member)]
  exact ends

theorem within_of_same (same : after.state.dataSent = watch.state.dataSent) : watch.Within after := by
  intro sent member
  rw [same, drop_length] at member
  cases member

theorem Watch.edge_le_edgeAfter (watch : Watch) (event : Established.Event) : watch.edge ≤ watch.edgeAfter event := by
  cases event with
  | segment seg =>
    rw [Watch.edgeAfter]
    split
    · exact le_max_left ..
    · exact le_rfl
  | _ => exact le_rfl

theorem onAck_sndNxt (flow : Flow) (now : Nat) (seg : Segment) : (flow.onAck now seg).sndNxt = flow.sndNxt := by
  rw [Flow.onAck]
  split
  · dsimp only
    split <;> rfl
  · rfl

variable (covered : Covered watch.state.flow watch.pos watch.edge)
include covered

theorem Covered.heard {flow : Flow} (tame : watch.Tame (.segment seg))
    (side : flow.sendSide = watch.state.flow.sendSide) :
    Covered (flow.onAck now seg) watch.pos (watch.edgeAfter (.segment seg)) := by
  have covered' := covered.of_same side le_rfl
  obtain ⟨sndNxt, sndUna, _, _⟩ := sendSide_eq.mp side
  have near := covered'.flight
  have una : watch.place watch.state.flow.sndUna = watch.pos - flow.inFlight := by
    rw [Flow.inFlight] at near
    rw [Watch.place, ← sndNxt, ← sndUna, toInt_of_near (by omega), Flow.inFlight]
  cases isAck : seg.isAck with
  | false =>
    rw [Flow.onAck, if_neg (by simp [isAck]), Watch.edgeAfter, if_neg (by simp [isAck])]
    exact covered'
  | true =>
    have tame := tame isAck
    rw [una, Watch.place, ← sndNxt] at tame
    rw [Watch.edgeAfter, if_pos isAck, Watch.rightEdge, Watch.place, ← sndNxt]
    exact covered'.onAck now isAck tame

theorem Covered.step {event : Established.Event} (tame : watch.Tame event)
    (stepped : watch.step now event = some after) :
    watch.Within after ∧ Covered after.state.flow after.pos after.edge := by
  obtain ⟨state, ran, rfl⟩ := Option.map_eq_some_iff.mp stepped
  have grown := watch.edge_le_edgeAfter event
  have still : state.flow.sndNxt = watch.state.flow.sndNxt →
      watch.pos + (state.flow.sndNxt - watch.state.flow.sndNxt).toNat = watch.pos := by
    intro same
    rw [same, BitVec.sub_self, BitVec.toNat_zero, Nat.add_zero]
  cases step_sends ran with
  | quiet same =>
    obtain ⟨side, dataSent⟩ := Prod.mk.inj same
    refine ⟨within_of_same dataSent, ?_⟩
    dsimp only
    rw [still (congrArg Prod.fst side)]
    exact covered.of_same side grown
  | heard seg shape flow now' side same =>
    subst shape
    obtain ⟨side', dataSent⟩ := Prod.mk.inj same
    have sndNxt : state.flow.sndNxt = watch.state.flow.sndNxt :=
      (congrArg Prod.fst side').trans ((onAck_sndNxt ..).trans (congrArg Prod.fst side))
    refine ⟨within_of_same dataSent, ?_⟩
    dsimp only
    rw [still sndNxt]
    exact (covered.heard tame side).of_same side' le_rfl
  | sent seg next _ allowed few side sent same appended =>
    have sndNxt : state.flow.sndNxt = seg.end := congrArg Prod.fst side
    have covered' := (covered.sent next allowed few side).of_same rfl grown
    have reached := covered'.reached
    refine ⟨within_of_appended appended ?_, ?_⟩
    · rw [Watch.place, same]
      dsimp only
      rw [sndNxt, BitVec.sub_self, BitVec.toInt_zero, Int.sub_zero]
      exact reached
    dsimp only
    rw [sndNxt]
    exact covered'
  | again seg oldest side sent same appended =>
    have sndNxt : state.flow.sndNxt = watch.state.flow.sndNxt := congrArg Prod.fst side
    have reached := covered.reached
    refine ⟨within_of_appended appended ?_, ?_⟩
    · have near : (watch.state.flow.sndNxt - seg.end).toNat < 2 ^ 31 := by
        obtain ⟨rest, unacked⟩ := head?_eq_some_iff.mp oldest
        have short := covered.short
        have queued := covered.queued
        rw [unacked] at short queued
        rw [length_cons] at short
        cases queued with
        | cons near _ => omega
      rw [Watch.place, same]
      dsimp only
      rw [still sndNxt, sndNxt, toInt_of_near near]
      omega
    · dsimp only
      rw [still sndNxt]
      exact covered.of_same side grown

theorem Covered.alwaysWithin {events : List (Nat × Established.Event)} (tame : watch.AlwaysTame events) :
    watch.AlwaysWithin events := by
  induction events generalizing watch with
  | nil => trivial
  | cons head rest ih =>
    obtain ⟨now, event⟩ := head
    obtain ⟨here, later⟩ := tame
    intro after stepped
    obtain ⟨within, covered'⟩ := covered.step here stepped
    exact ⟨within, ih covered' (later after stepped)⟩

end

theorem Greeted.covered {flow : Flow} {greeting : Segment} (greeted : Greeted flow greeting) :
    Covered flow 0 greeting.window.toNat := by
  have window : greeting.window.toNat ≤ 65535 := Nat.le_of_lt_succ greeting.window.toNat_lt
  have fresh (flow : Flow) (idle : flow.sndNxt = flow.sndUna) (wnd : flow.peerWnd = greeting.window.toNat)
      (none : flow.unacked = []) : Covered flow 0 greeting.window.toNat := by
    have flight : flow.inFlight = 0 := by rw [Flow.inFlight, idle, BitVec.sub_self, BitVec.toNat_zero]
    refine ⟨by omega, by omega, by omega, by omega, by simp [none], ?_⟩
    rw [none]
    exact .nil
  cases greeted with
  | passive mtu isn now syn seg isAck acks => exact fresh _ rfl rfl rfl
  | active mtu isn now synAck isAck acks => exact fresh _ rfl rfl rfl

/-- As long as no segment that acknowledges less than an earlier one widens
the window past the largest right edge, everything that the flow sends of its
stream ends at or before that edge. -/
theorem sent_within_edge {flow : Flow} {greeting : Segment} (greeted : Greeted flow greeting) (room : Option Nat)
    {events : List (Nat × Established.Event)} (tame : (Watch.start flow greeting room).AlwaysTame events) :
    (Watch.start flow greeting room).AlwaysWithin events :=
  Covered.alwaysWithin greeted.covered tame

def acknowledging (ack : BitVec 32) (window : UInt16) : Segment where
  seq := 1
  ack
  flags := tcpAck
  window
  payload := []
  mss := none
  sized := by decide

/-- The guest's buffer holds four bytes, and its application reads none. -/
def slowReader : Flow :=
  (Flow.new 1500 7 0 { acknowledging 0 4 with seq := 0, flags := tcpSyn }).establishPassive (acknowledging 8 4)

/-- Two bytes are sent and acknowledged, and a segment from before comes late. -/
def lateSegment (window : UInt16) : List (Nat × Established.Event) :=
  [(1, .read [1, 2]), (2, .segment (acknowledging 10 2)), (3, .segment (acknowledging 8 window)),
    (4, .read [3, 4, 5, 6]), (5, .read [3, 4])]

theorem late_narrow_within : (Watch.start slowReader (acknowledging 8 4) none).AlwaysTame (lateSegment 2) ∧
      (Watch.start slowReader (acknowledging 8 4) none).AlwaysWithin (lateSegment 2) := by
  have tame : (Watch.start slowReader (acknowledging 8 4) none).AlwaysTame (lateSegment 2) := by decide +kernel
  exact ⟨tame, sent_within_edge (.passive 1500 7 0 _ _ (by decide) (by decide)) none tame⟩

theorem late_wide_not_within : Greeted slowReader (acknowledging 8 4) ∧
      ¬(Watch.start slowReader (acknowledging 8 4) none).AlwaysWithin (lateSegment 4) :=
  ⟨.passive 1500 7 0 _ _ (by decide) (by decide), by decide +kernel⟩

/-! ## The queue of segments without an acknowledgement -/

def TxSeg.size (seg : TxSeg) : Nat := seg.data.length + seg.fin.toNat

/-- Segments that follow each other from one position of our stream to another. -/
inductive Tiles (base : BitVec 32) : Nat → List TxSeg → Nat → Prop where
  | nil (high : Nat) : Tiles base high [] high
  | cons {low high : Nat} {seg : TxSeg} {rest : List TxSeg} (seq : seg.seq = serial base low)
      (sized : 0 < seg.size ∧ seg.size ≤ 65535) (later : Tiles base (low + seg.size) rest high) :
      Tiles base low (seg :: rest) high

/-- The queue covers our stream from `low` to `sndNxt`, and its first segment holds `sndUna`. -/
structure Tiled (flow : Flow) (base : BitVec 32) (low una high : Nat) : Prop where
  next : flow.sndNxt = serial base high
  oldest : flow.sndUna = serial base una
  tiles : Tiles base low flow.unacked high
  first : ∀ seg ∈ flow.unacked.head?, una < low + seg.size
  between : low ≤ una ∧ una ≤ low + 65535 ∧ una ≤ high ∧ high ≤ una + 65535
  window : flow.peerWnd ≤ 65535

section

variable {base : BitVec 32} {low una high : Nat} {segs : List TxSeg} {seg : TxSeg}

theorem TxSeg.end_eq (seq : seg.seq = serial base low) : seg.end = serial base (low + seg.size) := by
  rw [TxSeg.end, seq, serial_add, serial_add, TxSeg.size, Nat.add_assoc]

theorem Tiles.le (tiles : Tiles base low segs high) : low ≤ high := by
  induction tiles with
  | nil => exact le_rfl
  | cons _ _ _ ih => omega

theorem Tiles.append (tiles : Tiles base low segs high) (seq : seg.seq = serial base high)
    (sized : 0 < seg.size ∧ seg.size ≤ 65535) : Tiles base low (segs ++ [seg]) (high + seg.size) := by
  induction tiles with
  | nil => exact .cons seq sized (.nil _)
  | cons first firstSized _ ih => exact .cons first firstSized (ih seq)

/-- An acknowledgement drops the segments before the one that holds it. -/
theorem Tiles.drop {ack : Nat} (tiles : Tiles base low segs high) (after : low ≤ ack) (inside : ack ≤ high)
    (near : high < low + 2 ^ 31) : ∃ low' ≤ ack, ack ≤ low' + 65535 ∧
      Tiles base low' (segs.dropWhile fun front => seqLe front.end (serial base ack)) high ∧
      ∀ seg ∈ (segs.dropWhile fun front => seqLe front.end (serial base ack)).head?, ack < low' + seg.size := by
  induction tiles with
  | nil high => exact ⟨high, after, by omega, .nil _, nofun⟩
  | @cons low high seg rest seq sized later ih =>
    have below := later.le
    rw [dropWhile_cons, TxSeg.end_eq seq, seqLe]
    by_cases acked : low + seg.size ≤ ack
    · rw [serialLe_of_le base acked (by omega)]
      exact ih acked inside (by omega)
    rw [serialLe_of_lt base (by omega) (by omega)]
    refine ⟨low, after, by omega, .cons seq sized later, fun front isFront => ?_⟩
    cases isFront
    omega

variable {flow other : Flow}

theorem Tiled.of_same (tiled : Tiled flow base low una high) (side : other.sendSide = flow.sendSide) :
    Tiled other base low una high := by
  obtain ⟨sndNxt, sndUna, peerWnd, unacked⟩ := sendSide_eq.mp side
  exact ⟨sndNxt.trans tiled.next, sndUna.trans tiled.oldest, unacked ▸ tiled.tiles, unacked ▸ tiled.first,
    tiled.between, peerWnd ▸ tiled.window⟩

section

variable (tiled : Tiled flow base low una high)
include tiled

theorem Tiled.inFlight : flow.inFlight = high - una := by
  have between := tiled.between
  rw [Flow.inFlight, tiled.next, tiled.oldest]
  exact serial_sub_eq between.2.2.1 (by omega)

theorem Tiled.onAck (now : Nat) (seg : Segment) : ∃ low' una', Tiled (flow.onAck now seg) base low' una' high := by
  have window : seg.window.toNat ≤ 65535 := Nat.le_of_lt_succ seg.window.toNat_lt
  have between := tiled.between
  rw [Flow.onAck]
  split
  · dsimp only
    split
    · exact ⟨low, una, { tiled with window }⟩
    · next taken =>
      have inside : (seg.ack - flow.sndUna).toNat ≤ flow.inFlight := Nat.le_of_not_lt (not_or.mp taken).2
      have acked : seg.ack = serial base (una + (seg.ack - flow.sndUna).toNat) := by
        rw [← serial_add, ← tiled.oldest, BitVec.ofNat_toNat]
        bv_omega
      rw [tiled.inFlight] at inside
      generalize (seg.ack - flow.sndUna).toNat = step at inside acked
      rw [acked]
      obtain ⟨low', before, near, tiles, first⟩ := tiled.tiles.drop (Nat.le_add_right_of_le between.1)
        (by omega : una + step ≤ high) (by omega)
      exact ⟨low', una + step, tiled.next, rfl, tiles, first, ⟨before, near, by omega⟩, window⟩
  · exact ⟨low, una, tiled⟩

theorem Tiled.sent (next : seg.seq = flow.sndNxt) (some : 0 < seg.size) (allowed : seg.size ≤ flow.sendAllowance)
    (side : other.sendSide = (seg.end, flow.sndUna, flow.peerWnd, flow.unacked ++ [seg])) :
    Tiled other base low una (high + seg.size) := by
  obtain ⟨sndNxt, sndUna, peerWnd, unacked⟩ := sendSide_eq.mp side
  have between := tiled.between
  have window := tiled.window
  have seq := next.trans tiled.next
  have room := allowed.trans flow.sendAllowance_le
  rw [tiled.inFlight] at room
  refine ⟨sndNxt.trans (TxSeg.end_eq seq), sndUna.trans tiled.oldest, ?_, fun front isFront => ?_, by omega,
    peerWnd ▸ window⟩
  · rw [unacked]
    exact tiled.tiles.append seq ⟨some, by omega⟩
  have tiles := tiled.tiles
  have first := tiled.first front
  rw [unacked] at isFront
  generalize flow.unacked = segs at tiles first isFront
  cases tiles with
  | nil =>
    cases isFront
    omega
  | cons => exact first isFront

end

theorem Tiled.step {state after : Established} {now : Nat} {event : Established.Event}
    (tiled : Tiled state.flow base low una high) (stepped : state.step now event = some after) :
    ∃ low una high, Tiled after.flow base low una high := by
  cases step_sends stepped with
  | quiet same => exact ⟨low, una, high, tiled.of_same (congrArg Prod.fst same)⟩
  | heard seg _ flow now' side same =>
    obtain ⟨low, una, acked⟩ := (tiled.of_same side).onAck now' seg
    exact ⟨low, una, high, acked.of_same (congrArg Prod.fst same)⟩
  | sent seg next some allowed few side => exact ⟨low, una, _, tiled.sent next some allowed side⟩
  | again seg oldest side => exact ⟨low, una, high, tiled.of_same side⟩

theorem Tiled.run {state after : Established} {events : List (Nat × Established.Event)}
    (tiled : Tiled state.flow base low una high) (ran : state.run events = some after) :
    ∃ low una high, Tiled after.flow base low una high := by
  induction events generalizing state low una high with
  | nil =>
    cases ran
    exact ⟨low, una, high, tiled⟩
  | cons head rest ih =>
    obtain ⟨middle, stepped, ran⟩ := Option.bind_eq_some_iff.mp ran
    obtain ⟨low, una, high, tiled⟩ := tiled.step stepped
    exact ih tiled ran

theorem Tiled.empty_iff (tiled : Tiled flow base low una high) : flow.unacked = [] ↔ flow.sndUna = flow.sndNxt := by
  have between := tiled.between
  have tiles := tiled.tiles
  have first := tiled.first
  rw [tiled.next, tiled.oldest]
  generalize flow.unacked = segs at tiles first
  cases tiles with
  | nil =>
    have same : una = low := by omega
    simp [same]
  | cons seq sized later =>
    have held := first _ rfl
    have below := later.le
    refine iff_of_false (cons_ne_nil _ _) fun same => ?_
    have := serial_injective (by omega) (by omega) same
    omega

theorem Tiled.retransmits (tiled : Tiled flow base low una high) {now : Nat} {sent : Emitted}
    (emitted : sent ∈ (flow.onRto now).2.1) (isData : sent.isData = true) : seqLe sent.seq flow.sndUna = true := by
  have between := tiled.between
  have tiles := tiled.tiles
  rw [Flow.onRto] at emitted
  dsimp only at emitted
  split at emitted
  · cases mem_singleton.mp emitted
    rw [isData_of_control rfl (.inr rfl)] at isData
    cases isData
  rw [tiled.oldest]
  generalize flow.unacked = segs at tiles emitted
  cases tiles with
  | nil => cases emitted
  | cons seq =>
    cases mem_singleton.mp emitted
    exact (congrArg (seqLe · _) seq).trans (serialLe_of_le base between.1 (by omega))

end

theorem Greeted.tiled {flow : Flow} {greeting : Segment} (greeted : Greeted flow greeting) :
    ∃ base, Tiled flow base 0 0 0 := by
  have window : greeting.window.toNat ≤ 65535 := Nat.le_of_lt_succ greeting.window.toNat_lt
  cases greeted with
  | passive mtu isn | active mtu isn =>
    exact ⟨isn + 1, (serial_zero _).symm, (serial_zero _).symm, .nil 0, nofun, by omega, window⟩

/-- Whatever the guest acknowledges, the queue covers the stream without a gap from the segment that holds the first
byte not yet acknowledged up to what was sent, and a retransmission starts at or before that byte. -/
theorem unacked_tiles {flow : Flow} {greeting : Segment} (greeted : Greeted flow greeting) (room : Option Nat)
    {events : List (Nat × Established.Event)} {state : Established}
    (ran : (Established.start flow room).run events = some state) :
    (∃ base low una high, Tiled state.flow base low una high) ∧
      (state.flow.unacked = [] ↔ state.flow.sndUna = state.flow.sndNxt) ∧
      ∀ now, ∀ sent ∈ (state.flow.onRto now).2.1, sent.isData = true → seqLe sent.seq state.flow.sndUna = true := by
  obtain ⟨base, tiled⟩ := greeted.tiled
  obtain ⟨low, una, high, tiled⟩ := @Tiled.run _ _ _ _ (Established.start flow room) _ _ tiled ran
  exact ⟨⟨base, low, una, high, tiled⟩, tiled.empty_iff, fun _ _ => tiled.retransmits⟩

/-- The late segment does not tear the queue. -/
theorem unacked_tiles_late : ∃ state, (Established.start slowReader none).run (lateSegment 2) = some state ∧
    (state.flow.unacked = [] ↔ state.flow.sndUna = state.flow.sndNxt) := by
  have runs : ((Established.start slowReader none).run (lateSegment 2)).isSome = true := by decide +kernel
  obtain ⟨state, ran⟩ := Option.isSome_iff_exists.mp runs
  have greeted : Greeted slowReader (acknowledging 8 4) := .passive 1500 7 0 _ _ (by decide) (by decide)
  exact ⟨state, ran, (unacked_tiles greeted none ran).2.1⟩

end Vmlab.Net.Nat
