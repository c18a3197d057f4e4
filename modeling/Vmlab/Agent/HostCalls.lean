import Vmlab.Agent.Frame

/-!
# File calls on the host side of the agent connection

Every call is a task that sends one record under the channel's `wire` lock, and each frame of it under the socket's
`writer` lock, within the credit. Cancelling a task drops it where it waits: its locks are released and what it has
written stays. A push or a pull starts, cancels and closes calls; here in any order.
-/

namespace Vmlab.Agent

open Library
open Function (update)

def maxData : Nat := 128 * 1024

structure Record where
  request : List UInt8
  payload : List UInt8

def encodeRecord (record : Record) : List UInt8 :=
  toLe32 record.request.length ++ toLe32 record.payload.length ++ record.request ++ record.payload

inductive Work where
  | record (channel : UInt32) (record : Record)
  | control (payload : List UInt8)

inductive Phase where
  | waiting
  | crediting (off : Nat)
  | queued (off granted : Nat)
  | writing (off granted written : Nat)

structure Task where
  work : Work
  phase : Phase

def Work.frame (work : Work) (off granted : Nat) : Frame :=
  match work with
  | .record channel sent => ⟨.data, channel, window (encodeRecord sent) off granted⟩
  | .control payload => ⟨.ctrl, 0, payload⟩

structure Host where
  tasks : Nat → Option Task
  writer : Option Nat
  wire : UInt32 → Option Nat
  avail : UInt32 → Nat
  closed : UInt32 → Bool
  failed : UInt32 → Bool
  socket : List UInt8
  broken : Bool

def Host.connected : Host where
  tasks _ := none
  writer := none
  wire _ := none
  avail _ := initialWindow
  closed _ := false
  failed _ := false
  socket := []
  broken := false

def Host.setTask (host : Host) (id : Nat) (task : Task) : Host :=
  { host with tasks := update host.tasks id (some task) }

def Host.dropTask (host : Host) (id : Nat) : Host :=
  { host with
    tasks := update host.tasks id none
    writer := if host.writer = some id then none else host.writer
    wire := fun channel => if host.wire channel = some id then none else host.wire channel }

def takeCredit (avail want : Nat) : Nat := min (min avail want) maxPayload

inductive Event where
  | call (id : Nat) (channel : UInt32) (record : Record)
  | message (id : Nat) (payload : List UInt8)
  | lockWire (id : Nat)
  | takeCredit (id : Nat)
  | refuseCredit (id : Nat)
  | lockWriter (id : Nat)
  | write (id count : Nat)
  | finishFrame (id : Nat)
  | failWrite (id : Nat)
  | complete (id : Nat)
  | cancel (id : Nat)
  | grant (channel : UInt32) (bytes : Nat)
  | close (channel : UInt32)
  | failAll (channel : UInt32)
  | breakSocket

section

variable (host : Host)

def Host.step : Event → Option Host
  | .call id channel record =>
    if host.tasks id = none ∧ host.failed channel = false ∧ record.payload.length ≤ maxData then
      some (host.setTask id ⟨.record channel record, .waiting⟩)
    else none
  | .message id payload =>
    if host.tasks id = none ∧ payload.length ≤ maxPayload then
      some (host.setTask id ⟨.control payload, .waiting⟩)
    else none
  | .lockWire id =>
    match host.tasks id with
    | some ⟨.record channel record, .waiting⟩ =>
      if host.wire channel = none then
        some { host.setTask id ⟨.record channel record, .crediting 0⟩ with
          wire := update host.wire channel (some id) }
      else none
    | _ => none
  | .takeCredit id =>
    match host.tasks id with
    | some ⟨.record channel record, .crediting off⟩ =>
      if off < (encodeRecord record).length ∧ host.closed channel = false ∧ 0 < host.avail channel then
        let granted := Agent.takeCredit (host.avail channel) ((encodeRecord record).length - off)
        some { host.setTask id ⟨.record channel record, .queued off granted⟩ with
          avail := update host.avail channel (host.avail channel - granted) }
      else none
    | _ => none
  | .refuseCredit id =>
    match host.tasks id with
    | some ⟨.record channel record, .crediting off⟩ =>
      if off < (encodeRecord record).length ∧ host.closed channel = true then some (host.dropTask id) else none
    | _ => none
  | .lockWriter id =>
    match host.tasks id with
    | some ⟨.record channel record, .queued off granted⟩ =>
      if host.writer = none then
        some { host.setTask id ⟨.record channel record, .writing off granted 0⟩ with writer := some id }
      else none
    | some ⟨.control payload, .waiting⟩ =>
      if host.writer = none then
        some { host.setTask id ⟨.control payload, .writing 0 0 0⟩ with writer := some id }
      else none
    | _ => none
  | .write id count =>
    match host.tasks id with
    | some ⟨work, .writing off granted written⟩ =>
      if host.broken = false ∧ written + count ≤ (encodeFrame (work.frame off granted)).length then
        some { host.setTask id ⟨work, .writing off granted (written + count)⟩ with
          socket := host.socket ++ window (encodeFrame (work.frame off granted)) written count }
      else none
    | _ => none
  | .finishFrame id =>
    match host.tasks id with
    | some ⟨.record channel record, .writing off granted written⟩ =>
      if written = (encodeFrame ((Work.record channel record).frame off granted)).length then
        some { host.setTask id ⟨.record channel record, .crediting (off + granted)⟩ with writer := none }
      else none
    | some ⟨.control payload, .writing off granted written⟩ =>
      if written = (encodeFrame ((Work.control payload).frame off granted)).length then some (host.dropTask id)
      else none
    | _ => none
  | .failWrite id =>
    match host.tasks id with
    | some ⟨_, .writing _ _ _⟩ => if host.broken = true then some (host.dropTask id) else none
    | _ => none
  | .complete id =>
    match host.tasks id with
    | some ⟨.record _ record, .crediting off⟩ =>
      if (encodeRecord record).length ≤ off then some (host.dropTask id) else none
    | _ => none
  | .cancel id => if host.tasks id = none then none else some (host.dropTask id)
  | .grant channel bytes =>
    some { host with avail := update host.avail channel (min (host.avail channel + bytes) (2 ^ 64 - 1)) }
  | .close channel => some { host with closed := update host.closed channel true }
  | .failAll channel => some { host with failed := update host.failed channel true }
  | .breakSocket => some { host with broken := true }

def Host.clean (task : Task) : Bool :=
  host.broken ||
    match task with
    | ⟨.record channel record, .crediting off⟩ =>
      host.closed channel || off = 0 || (encodeRecord record).length ≤ off
    | ⟨.record channel _, .queued off _⟩ => host.closed channel || off = 0
    | ⟨.record channel record, .writing off granted written⟩ =>
      (written = 0 && (host.closed channel || off = 0)) ||
        (written = (encodeFrame ((Work.record channel record).frame off granted)).length &&
          (host.closed channel || (encodeRecord record).length ≤ off + granted))
    | ⟨.control payload, .writing off granted written⟩ =>
      written = 0 || written = (encodeFrame ((Work.control payload).frame off granted)).length
    | _ => true

def Host.permits : Event → Bool
  | .cancel id => (host.tasks id).all host.clean
  | _ => true

def Host.cleanRun (events : List Event) : Option Host :=
  events.foldlM (fun host event => if host.permits event then host.step event else none) host

def Host.run (events : List Event) : Option Host := events.foldlM Host.step host

end

/-! ## What is on the wire -/

def Task.unfinishedFrame : Task → List UInt8
  | ⟨work, .writing off granted written⟩ => (encodeFrame (work.frame off granted)).take written
  | _ => []

def Task.unfinishedRecord : Task → List UInt8
  | ⟨.record _ record, .crediting off⟩ => (encodeRecord record).take off
  | ⟨.record _ record, .queued off _⟩ => (encodeRecord record).take off
  | ⟨.record _ record, .writing off _ _⟩ => (encodeRecord record).take off
  | _ => []

def Host.unfinishedFrame (host : Host) : List UInt8 :=
  ((host.writer.bind host.tasks).map Task.unfinishedFrame).getD []

def Host.unfinishedRecord (host : Host) (channel : UInt32) : List UInt8 :=
  (((host.wire channel).bind host.tasks).map Task.unfinishedRecord).getD []

def dataOn (channel : UInt32) (frames : List Frame) : List UInt8 :=
  (frames.filter fun frame => frame.kind = .data ∧ frame.channel = channel).flatMap Frame.payload

/-- The socket carries whole frames, up to the one that is being written, or that was being written when the socket
broke; and each channel carries whole records, up to the one that is being sent, or that was being sent when the
channel closed or the socket broke. -/
def Host.Intact (host : Host) : Prop :=
  ∃ frames : List Frame, (∀ frame ∈ frames, frame.payload.length ≤ maxPayload) ∧
    (∃ cut, host.socket = frames.flatMap encodeFrame ++ cut ∧ (∃ frame, cut <+: encodeFrame frame) ∧
      (host.broken = false → cut = host.unfinishedFrame)) ∧
    ∀ channel, ∃ (records : List Record) (cut : List UInt8),
      dataOn channel frames = records.flatMap encodeRecord ++ cut ∧ (∃ record, cut <+: encodeRecord record) ∧
        (host.broken = false → host.closed channel = false → cut = host.unfinishedRecord channel)

end Vmlab.Agent
