import Vmlab.Agent.Frame

/-!
# The exec sessions behind the agent's reader

One reader takes the host's frames off the port in order. Input goes into a session's bounded queue, where the reader
waits when the queue is full; credit for a session's output comes through the same reader. The host never has more
data on the way than its own window allows. The child is any process: it reads, writes, closes its stdin and exits when
it likes. Of the bytes only their number matters here.
-/

namespace Vmlab.Agent

open Function (update)

def windowReplenish : Nat := initialWindow / 2

def outQueue : Nat := 256

def inputQueue : Nat := 2 * (initialWindow / 1024)

def pumpBuffer : Nat := 32 * 1024

inductive Input where
  | bytes (count : Nat)
  | eof
  deriving DecidableEq

inductive HostFrame where
  | openExec (channel : UInt32)
  | data (channel : UInt32) (count : Nat)
  | eof (channel : UInt32)
  | windowAdjust (channel : UInt32) (bytes : Nat)
  | close (channel : UInt32)
  | ping
  deriving DecidableEq

inductive AgentFrame where
  | data (channel : UInt32) (count : Nat)
  | windowAdjust (channel : UInt32) (bytes : Nat)
  | ctrl

structure Credit where
  avail : Nat
  closed : Bool
  deriving DecidableEq

def Credit.take (credit : Credit) (want : Nat) : Option (Nat × Credit) :=
  if credit.closed then some (0, credit)
  else if 0 < credit.avail then
    let count := min (min credit.avail want) maxPayload
    some (count, { credit with avail := credit.avail - count })
  else none

structure OutPump where
  pipe : Nat
  chunk : Nat
  deriving DecidableEq

inductive Output where
  | stdout
  | stderr
  deriving DecidableEq

structure Session where
  input : List Input
  chunk : Option (Nat × Nat)
  stdinOpen : Bool
  consumed : Nat
  stdin : Nat
  reading : Bool
  exited : Bool
  pumps : Output → OutPump
  credit : Credit

structure Mux where
  sessions : UInt32 → Option Session
  port : List HostFrame
  held : Option (UInt32 × Input)
  out : List AgentFrame
  window : UInt32 → Nat
  routed : List HostFrame

def Mux.start : Mux where
  sessions _ := none
  port := []
  held := none
  out := []
  window _ := initialWindow
  routed := []

def Session.fresh : Session where
  input := []
  chunk := none
  stdinOpen := true
  consumed := 0
  stdin := 0
  reading := true
  exited := false
  pumps _ := ⟨0, 0⟩
  credit := ⟨initialWindow, false⟩

def recvWindow (consumed count : Nat) : Nat × Option Nat :=
  if windowReplenish ≤ consumed + count then (0, some (consumed + count)) else (consumed + count, none)

inductive Turn where
  | idle
  | hostSends (frame : HostFrame)
  | readFrame
  | enqueue
  | portWrites
  | pumpTakes (channel : UInt32)
  | pumpWrites (channel : UInt32) (count : Nat)
  | pumpFails (channel : UInt32)
  | pumpDone (channel : UInt32)
  | childReads (channel : UInt32) (count : Nat)
  | childWrites (channel : UInt32) (output : Output) (count : Nat)
  | childCloses (channel : UInt32)
  | childExits (channel : UInt32)
  | outReads (channel : UInt32) (output : Output) (count : Nat)
  | outSends (channel : UInt32) (output : Output)
  | reaped (channel : UInt32)

def Mux.setSession (mux : Mux) (channel : UInt32) (session : Session) : Mux :=
  { mux with sessions := update mux.sessions channel (some session) }

def Mux.routeInput (mux : Mux) (channel : UInt32) (input : Input) : Mux :=
  match mux.sessions channel with
  | none => mux
  | some session =>
    if session.input.length < inputQueue then
      mux.setSession channel { session with input := session.input ++ [input] }
    else { mux with held := some (channel, input) }

/-- The dispatch of one frame, on `none` while the queue of the port's writer has no room for a reply. -/
def Mux.handle (mux : Mux) : HostFrame → Option Mux
  | .openExec channel =>
    if mux.out.length < outQueue then
      if channel = 0 ∨ (mux.sessions channel).isSome then some { mux with out := mux.out ++ [.ctrl] }
      else some { mux.setSession channel .fresh with out := mux.out ++ [.ctrl] }
    else none
  | .data channel count => some (mux.routeInput channel (.bytes count))
  | .eof channel => some (mux.routeInput channel .eof)
  | .windowAdjust channel bytes =>
    match mux.sessions channel with
    | none => some mux
    | some session =>
      some (mux.setSession channel
        { session with credit := { session.credit with avail := min (session.credit.avail + bytes) (2 ^ 64 - 1) } })
  | .close channel => some { mux with sessions := update mux.sessions channel none }
  | .ping => if mux.out.length < outQueue then some { mux with out := mux.out ++ [.ctrl] } else none

def Mux.hostSends (mux : Mux) (frame : HostFrame) : Option Mux :=
  match frame with
  | .data channel count =>
    if count ≤ mux.window channel ∧ count ≤ maxPayload then
      some { mux with
        port := mux.port ++ [frame]
        window := update mux.window channel (mux.window channel - count) }
    else none
  | .openExec channel =>
    some { mux with port := mux.port ++ [frame], window := update mux.window channel initialWindow }
  | _ => some { mux with port := mux.port ++ [frame] }

/-- The step of a session's own threads and of its child, whose pipes hold `capacity` bytes each; a frame that it sends needs room in the writer's queue. -/
def Session.step (capacity : Nat) (session : Session) (channel : UInt32) : Turn → Option (Session × List AgentFrame)
  | .pumpTakes _ =>
    match session.chunk, session.input with
    | none, .bytes count :: rest =>
      if session.stdinOpen then some ({ session with input := rest, chunk := some (count, count) }, [])
      else some ({ session with input := rest }, [])
    | none, .eof :: rest => some ({ session with input := rest, stdinOpen := false }, [])
    | _, _ => none
  | .pumpWrites _ count =>
    match session.chunk with
    | some (left, size) =>
      if 0 < count ∧ count ≤ left ∧ session.stdin + count ≤ capacity ∧ session.reading then
        some ({ session with chunk := some (left - count, size), stdin := session.stdin + count }, [])
      else none
    | none => none
  | .pumpFails _ =>
    match session.chunk with
    | some (_ + 1, size) =>
      if session.reading then none else some ({ session with chunk := some (0, size), stdinOpen := false }, [])
    | _ => none
  | .pumpDone _ =>
    match session.chunk with
    | some (0, size) =>
      match recvWindow session.consumed size with
      | (consumed, some grant) =>
        some ({ session with chunk := none, consumed := consumed }, [.windowAdjust channel grant])
      | (consumed, none) => some ({ session with chunk := none, consumed := consumed }, [])
    | _ => none
  | .childReads _ count =>
    if session.reading ∧ 0 < count ∧ count ≤ session.stdin then
      some ({ session with stdin := session.stdin - count }, [])
    else none
  | .childWrites _ output count =>
    if session.exited = false ∧ 0 < count ∧ (session.pumps output).pipe + count ≤ capacity then
      some ({ session with
        pumps := update session.pumps output
          { session.pumps output with pipe := (session.pumps output).pipe + count } }, [])
    else none
  | .childCloses _ => some ({ session with reading := false }, [])
  | .childExits _ => some ({ session with reading := false, exited := true }, [])
  | .outReads _ output count =>
    if (session.pumps output).chunk = 0 ∧ 0 < count ∧ count ≤ (session.pumps output).pipe ∧ count ≤ pumpBuffer then
      some ({ session with
        pumps := update session.pumps output ⟨(session.pumps output).pipe - count, count⟩ }, [])
    else none
  | .outSends _ output =>
    if (session.pumps output).chunk = 0 then none
    else
      match session.credit.take (session.pumps output).chunk with
      | none => none
      | some (0, _) =>
        some ({ session with
          pumps := update session.pumps output { session.pumps output with chunk := 0 } }, [])
      | some (count, credit) =>
        some ({ session with
          pumps := update session.pumps output
            { session.pumps output with chunk := (session.pumps output).chunk - count }
          credit := credit }, [.data channel count])
  | _ => none

def Session.drained (session : Session) : Bool :=
  session.exited && [Output.stdout, .stderr].all fun output => session.pumps output = ⟨0, 0⟩

def Turn.channel : Turn → Option UInt32
  | .pumpTakes channel | .pumpWrites channel _ | .pumpFails channel | .pumpDone channel | .childReads channel _
  | .childWrites channel _ _ | .childCloses channel | .childExits channel | .outReads channel _ _
  | .outSends channel _ => some channel
  | _ => none

def Mux.step (capacity : Nat) (mux : Mux) (turn : Turn) : Option Mux :=
  match turn with
  | .idle => some mux
  | .hostSends frame => mux.hostSends frame
  | .readFrame =>
    match mux.held, mux.port with
    | none, frame :: rest =>
      { mux with port := rest, routed := mux.routed ++ [frame] }.handle frame
    | _, _ => none
  | .enqueue =>
    match mux.held with
    | none => none
    | some (channel, input) =>
      match mux.sessions channel with
      | none => some { mux with held := none }
      | some session =>
        if session.input.length < inputQueue then
          some { mux.setSession channel { session with input := session.input ++ [input] } with held := none }
        else none
  | .portWrites =>
    match mux.out with
    | [] => none
    | .windowAdjust channel bytes :: rest =>
      some { mux with
        out := rest
        window := update mux.window channel (min (mux.window channel + bytes) (2 ^ 64 - 1)) }
    | _ :: rest => some { mux with out := rest }
  | .reaped channel =>
    match mux.sessions channel with
    | some session =>
      if session.drained ∧ mux.out.length + 2 ≤ outQueue then
        some { mux with
          sessions := update mux.sessions channel none
          out := mux.out ++ [.ctrl, .ctrl] }
      else none
    | none => none
  | turn =>
    match turn.channel with
    | none => none
    | some channel =>
      match mux.sessions channel with
      | none => none
      | some session =>
        match session.step capacity channel turn with
        | none => none
        | some (session, frames) =>
          if frames = [] ∨ mux.out.length < outQueue then
            some { mux.setSession channel session with out := mux.out ++ frames }
          else none

def Mux.run (capacity : Nat) (mux : Mux) (turns : List Turn) : Option Mux := turns.foldlM (Mux.step capacity) mux

/-! ## Room for every input -/

def HostFrame.isInput (channel : UInt32) : HostFrame → Bool
  | .data other _ | .eof other => other = channel
  | _ => false

def Mux.unconsumed (mux : Mux) (channel : UInt32) : Nat :=
  mux.port.countP (HostFrame.isInput channel) + ((mux.sessions channel).map (·.input.length)).getD 0

/-- Before the host sends an input, fewer inputs of its channel than the queue holds are unconsumed. -/
def Mux.roomy (mux : Mux) : Turn → Bool
  | .hostSends (.data channel _) | .hostSends (.eof channel) => mux.unconsumed channel < inputQueue
  | _ => true

/-- An unending run, whatever the order in which host, threads and children take their turns. -/
structure Execution (capacity : Nat) where
  states : Nat → Mux
  turns : Nat → Turn
  starts : states 0 = .start
  steps : ∀ time, (states time).step capacity (turns time) = some (states (time + 1))

/-- The reader gets its turn if it can take one again and again, and so does the port's writer if it always can: the
host keeps reading. -/
structure Execution.Fair {capacity : Nat} (execution : Execution capacity) : Prop where
  reader : ∀ time, (∀ later, time ≤ later → ∃ moment, later ≤ moment ∧
      ((execution.states moment).step capacity .readFrame).isSome) →
    ∃ moment, time ≤ moment ∧ execution.turns moment = .readFrame
  writer : ∀ time, (∀ later, time ≤ later → ((execution.states later).step capacity .portWrites).isSome) →
    ∃ moment, time ≤ moment ∧ execution.turns moment = .portWrites

/-! ## What a pump has taken off its queue, against the credit it has given back -/

def Input.size : Input → Nat
  | .bytes count => count
  | .eof => 0

def AgentFrame.grant : AgentFrame → Nat
  | .windowAdjust _ bytes => bytes
  | _ => 0

def Session.queued (session : Session) : Nat := (session.input.map Input.size).sum

def Session.inHand (session : Session) : Nat := (session.chunk.map Prod.snd).getD 0

inductive PumpEvent where
  | routed (input : Input)
  | turn (turn : Turn)

/-- A session with the bytes taken off its queue, granted to the host, and taken when its pipe was closed. -/
structure Pumped where
  session : Session
  taken : Nat
  granted : Nat
  discarded : Nat

def Pumped.start : Pumped := ⟨.fresh, 0, 0, 0⟩

def Pumped.step (capacity : Nat) (channel : UInt32) (pumped : Pumped) : PumpEvent → Pumped
  | .routed input => { pumped with session.input := pumped.session.input ++ [input] }
  | .turn turn =>
    match pumped.session.step capacity channel turn with
    | none => pumped
    | some (session, frames) =>
      let count := pumped.session.queued - session.queued
      { session
        taken := pumped.taken + count
        granted := pumped.granted + (frames.map AgentFrame.grant).sum
        discarded := pumped.discarded + if pumped.session.stdinOpen then 0 else count }

def Pumped.run (capacity : Nat) (channel : UInt32) (events : List PumpEvent) : Pumped :=
  events.foldl (Pumped.step capacity channel) .start

/-- The pump takes bytes off the queue although the pipe to the child was closed, by an end of file or a failed
write. -/
def Pumped.throwsAway (pumped : Pumped) : PumpEvent → Bool
  | .turn (.pumpTakes _) => !pumped.session.stdinOpen && pumped.session.chunk.isNone &&
    pumped.session.input.head?.any fun input => decide (0 < input.size)
  | _ => false

def Pumped.keepsAll (capacity : Nat) (channel : UInt32) (pumped : Pumped) : List PumpEvent → Bool
  | [] => true
  | event :: later => !pumped.throwsAway event && (pumped.step capacity channel event).keepsAll capacity channel later

/-- The bytes taken and not granted back: those counted by the window, the chunk that is being written, and
what came after the pipe was closed. -/
structure Pumped.Balanced (pumped : Pumped) : Prop where
  taken : pumped.taken = pumped.granted + (pumped.session.consumed + pumped.session.inHand + pumped.discarded)
  consumed : pumped.session.consumed < windowReplenish

variable {capacity : Nat} {channel : UInt32}

theorem recvWindow_spec {consumed count left : Nat} {grant : Option Nat}
    (answer : recvWindow consumed count = (left, grant)) :
    grant.getD 0 + left = consumed + count ∧ left < windowReplenish := by
  unfold recvWindow at answer
  split at answer <;> cases answer
  · exact ⟨rfl, by decide⟩
  · exact ⟨Nat.zero_add _, by omega⟩

theorem Session.step_balance {session after : Session} {turn : Turn} {frames : List AgentFrame}
    (below : session.consumed < windowReplenish) (stepped : session.step capacity channel turn = some (after, frames)) :
    (frames.map AgentFrame.grant).sum + (after.consumed + after.inHand) +
        (if session.stdinOpen then 0 else session.queued - after.queued) =
      session.consumed + session.inHand + (session.queued - after.queued) ∧ after.consumed < windowReplenish := by
  unfold Session.step at stepped
  split at stepped
  all_goals repeat' split at stepped
  all_goals first
    | cases stepped; done
    | cases stepped
      simp_all [Session.queued, Session.inHand, Input.size, AgentFrame.grant]
  -- What is left is the grant after a chunk was written.
  all_goals
    rename_i answer
    simpa using recvWindow_spec answer

theorem Pumped.Balanced.step {pumped : Pumped} (balanced : pumped.Balanced) (event : PumpEvent) :
    (pumped.step capacity channel event).Balanced := by
  cases event with
  | routed input => exact ⟨balanced.taken, balanced.consumed⟩
  | turn turn =>
    rw [Pumped.step]
    split
    · exact balanced
    · next session frames stepped =>
      obtain ⟨balance, below⟩ := Session.step_balance balanced.consumed stepped
      have taken := balanced.taken
      refine ⟨?_, below⟩
      dsimp only
      omega

theorem Session.step_taken {session after : Session} {turn : Turn} {frames : List AgentFrame}
    (stepped : session.step capacity channel turn = some (after, frames)) (fewer : after.queued < session.queued) :
    (∃ mine, turn = .pumpTakes mine) ∧ session.chunk = none ∧ ∃ input ∈ session.input.head?, 0 < input.size := by
  unfold Session.step at stepped
  split at stepped
  all_goals repeat' split at stepped
  all_goals first
    | cases stepped; done
    | cases stepped
      simp_all [Session.queued, Input.size]

theorem Pumped.discarded_step {pumped : Pumped} {event : PumpEvent} (kept : pumped.throwsAway event = false) :
    (pumped.step capacity channel event).discarded = pumped.discarded := by
  cases event with
  | routed input => rfl
  | turn turn =>
    rw [Pumped.step]
    split
    · rfl
    next session frames stepped =>
    dsimp only
    split
    · rfl
    next closed =>
    rcases Nat.lt_or_ge session.queued pumped.session.queued with fewer | same
    · obtain ⟨⟨mine, rfl⟩, free, input, first, some⟩ := Session.step_taken stepped fewer
      rw [Option.mem_def] at first
      simp [Pumped.throwsAway, closed, free, first, some] at kept
    · rw [Nat.sub_eq_zero_of_le same, Nat.add_zero]

theorem Pumped.discarded_run {pumped : Pumped} {events : List PumpEvent}
    (kept : pumped.keepsAll capacity channel events = true) :
    (events.foldl (Pumped.step capacity channel) pumped).discarded = pumped.discarded := by
  induction events generalizing pumped with
  | nil => rfl
  | cons event later ih =>
    rw [Pumped.keepsAll, Bool.and_eq_true, Bool.not_eq_true'] at kept
    exact (ih kept.2).trans (Pumped.discarded_step kept.1)

/-- If the pump never takes bytes off its queue after the pipe was closed, then at every moment the bytes that it took
and did not grant back are, without the chunk that it is writing, fewer than the threshold. Bytes that it did take so
are never granted back. -/
theorem ungranted_lt (capacity : Nat) (channel : UInt32) (events : List PumpEvent) :
    let pumped := Pumped.run capacity channel events
    pumped.discarded ≤ pumped.taken - pumped.granted ∧
      (Pumped.start.keepsAll capacity channel events = true →
        pumped.taken - pumped.granted < windowReplenish + pumped.session.inHand) := by
  have balanced : (Pumped.run capacity channel events).Balanced :=
    List.foldlRecOn (motive := Pumped.Balanced) events _ ⟨rfl, by decide⟩ fun _ balanced event _ => balanced.step event
  have taken := balanced.taken
  have consumed := balanced.consumed
  refine ⟨by omega, fun kept => ?_⟩
  have none : (Pumped.run capacity channel events).discarded = 0 := Pumped.discarded_run kept
  omega

/-- The child reads what it gets and then closes its stdin, in the middle of a chunk. Both chunks are granted. -/
theorem ungranted_lt_closed : let pumped := Pumped.run 65536 1 [.routed (.bytes maxPayload), .turn (.pumpTakes 1),
      .turn (.pumpWrites 1 65536), .turn (.pumpDone 1), .turn (.childReads 1 65536), .routed (.bytes maxPayload),
      .turn (.pumpTakes 1), .turn (.pumpWrites 1 7), .turn (.childCloses 1), .turn (.pumpFails 1), .turn (.pumpDone 1)]
    pumped.granted = 131072 ∧ pumped.taken - pumped.granted < windowReplenish + pumped.session.inHand :=
  ⟨by decide +kernel, (ungranted_lt _ _ _).2 (by decide +kernel)⟩

/-- After an end of file the host's whole window is taken and thrown away, and nothing is granted back. -/
theorem window_discarded_after_eof : let chunk := [PumpEvent.routed (.bytes maxPayload), .turn (.pumpTakes 1)]
    let pumped := Pumped.run 65536 1
      ([.routed .eof, .turn (.pumpTakes 1)] ++ chunk ++ chunk ++ chunk ++ chunk)
    pumped.taken = initialWindow ∧ pumped.granted = 0 ∧ pumped.session.input = [] ∧ pumped.session.chunk = none := by
  decide +kernel

/-! ## The reader never waits for room while the host keeps within each channel's queue -/

open List

variable {session : Session} {turn : Turn} {frame : HostFrame} {after : Session} {frames : List AgentFrame}

section

variable {capacity : Nat} {mux next : Mux}

/-! ## What a turn does -/

variable {channel : UInt32}

theorem Session.step_input (stepped : session.step capacity channel turn = some (after, frames)) :
    after.input.length ≤ session.input.length ∧ frames.length ≤ 1 := by
  unfold Session.step at stepped
  split at stepped
  all_goals repeat' split at stepped
  all_goals first
    | cases stepped; simp_all
    | cases stepped

structure Local (capacity : Nat) (mux : Mux) (turn : Turn) (next : Mux) where
  channel : UInt32
  session : Session
  after : Session
  frames : List AgentFrame
  inside : turn.channel = some channel
  live : mux.sessions channel = some session
  stepped : session.step capacity channel turn = some (after, frames)
  room : frames = [] ∨ mux.out.length < outQueue
  same : next = { mux.setSession channel after with out := mux.out ++ frames }

theorem step_local (inside : turn.channel = some channel)
    (stepped : mux.step capacity turn = some next) : Nonempty (Local capacity mux turn next) := by
  have unfolded : (match mux.sessions channel with
      | none => none
      | some session =>
        match session.step capacity channel turn with
        | none => none
        | some (session, frames) =>
          if frames = [] ∨ mux.out.length < outQueue then
            some { mux.setSession channel session with out := mux.out ++ frames }
          else none) = some next := by
    cases turn <;> cases inside <;> exact stepped
  cases live : mux.sessions channel with
  | none =>
    rw [live] at unfolded
    cases unfolded
  | some session =>
    rw [live] at unfolded
    cases ran : session.step capacity channel turn with
    | none => simp [ran] at unfolded
    | some result =>
      obtain ⟨after, frames⟩ := result
      simp only [ran] at unfolded
      split at unfolded
      · rename_i room
        cases unfolded
        exact ⟨⟨channel, session, after, frames, inside, live, ran, room, rfl⟩⟩
      · cases unfolded

theorem step_cases (stepped : mux.step capacity turn = some next) :
    (∃ frame rest, turn = .readFrame ∧ mux.held = none ∧ mux.port = frame :: rest ∧
      { mux with port := rest, routed := mux.routed ++ [frame] }.handle frame = some next) ∨
    (turn = .idle ∧ next = mux) ∨
    (∃ frame, turn = .hostSends frame ∧ mux.hostSends frame = some next) ∨
    (turn = .enqueue ∧ mux.held ≠ none ∧ next.port = mux.port ∧ next.routed = mux.routed) ∨
    (∃ frame, turn = .portWrites ∧ mux.out = frame :: next.out ∧ next.sessions = mux.sessions ∧
      next.port = mux.port ∧ next.held = mux.held ∧ next.routed = mux.routed) ∨
    (∃ channel, turn = .reaped channel ∧ next.sessions = Function.update mux.sessions channel none ∧
      next.out.length ≤ outQueue ∧ next.port = mux.port ∧ next.held = mux.held ∧ next.routed = mux.routed) ∨
    (turn ≠ .readFrame ∧ Nonempty (Local capacity mux turn next)) := by
  cases turn with
  | idle =>
    cases stepped
    exact .inr (.inl ⟨rfl, rfl⟩)
  | hostSends frame => exact .inr (.inr (.inl ⟨frame, rfl, stepped⟩))
  | readFrame =>
    simp only [Mux.step] at stepped
    split at stepped
    · rename_i frame rest free port
      exact .inl ⟨frame, rest, rfl, free, port, stepped⟩
    · cases stepped
  | enqueue =>
    refine .inr (.inr (.inr (.inl ⟨rfl, ?_⟩)))
    simp only [Mux.step] at stepped
    split at stepped
    · cases stepped
    rename_i held
    split at stepped
    · cases stepped
      exact ⟨by simp [held], rfl, rfl⟩
    · split at stepped <;> cases stepped
      exact ⟨by simp [held], rfl, rfl⟩
  | portWrites =>
    refine .inr (.inr (.inr (.inr (.inl ?_))))
    simp only [Mux.step] at stepped
    split at stepped
    · cases stepped
    all_goals
      rename_i waiting
      cases stepped
      exact ⟨_, rfl, waiting, rfl, rfl, rfl, rfl⟩
  | reaped channel =>
    refine .inr (.inr (.inr (.inr (.inr (.inl ⟨channel, rfl, ?_⟩)))))
    simp only [Mux.step] at stepped
    split at stepped
    · split at stepped <;> cases stepped
      rename_i ended
      exact ⟨rfl, by simpa using ended.2, rfl, rfl, rfl⟩
    · cases stepped
  | pumpTakes channel | pumpWrites channel count | pumpFails channel | pumpDone channel | childReads channel count
  | childWrites channel output count | childCloses channel | childExits channel | outReads channel output count | outSends channel output =>
    exact .inr (.inr (.inr (.inr (.inr (.inr ⟨by simp, step_local rfl stepped⟩)))))

/-! ## The log of what was sent -/

theorem handle_log (handled : mux.handle frame = some next) : next.port = mux.port ∧ next.routed = mux.routed := by
  have routed : ∀ channel input, (mux.routeInput channel input).port = mux.port ∧
      (mux.routeInput channel input).routed = mux.routed := by
    intro channel input
    simp only [Mux.routeInput]
    repeat' split
    all_goals exact ⟨rfl, rfl⟩
  cases frame with
  | data channel count | eof channel =>
    cases handled
    exact routed channel _
  | openExec channel =>
    simp only [Mux.handle] at handled
    repeat' split at handled
    all_goals first | exact ⟨by cases handled; rfl, by cases handled; rfl⟩ | cases handled
  | windowAdjust channel bytes =>
    simp only [Mux.handle] at handled
    split at handled <;> cases handled <;> exact ⟨rfl, rfl⟩
  | close channel =>
    cases handled
    exact ⟨rfl, rfl⟩
  | ping =>
    simp only [Mux.handle] at handled
    split at handled <;> cases handled
    exact ⟨rfl, rfl⟩

theorem hostSends_port (sent : mux.hostSends frame = some next) :
    next.port = mux.port ++ [frame] ∧ next.routed = mux.routed ∧ next.sessions = mux.sessions ∧
      next.held = mux.held ∧ next.out = mux.out := by
  cases frame with
  | data channel count =>
    simp only [Mux.hostSends] at sent
    split at sent <;> cases sent
    exact ⟨rfl, rfl, rfl, rfl, rfl⟩
  | openExec channel | eof channel | windowAdjust channel bytes | close channel | ping =>
    cases sent; exact ⟨rfl, rfl, rfl, rfl, rfl⟩

theorem step_log (stepped : mux.step capacity turn = some next) :
    (turn = .readFrame ∧ ∃ frame, mux.port = frame :: next.port ∧ next.routed = mux.routed ++ [frame]) ∨
      (turn ≠ .readFrame ∧ next.routed = mux.routed ∧ mux.port <+: next.port) := by
  rcases step_cases stepped with ⟨frame, rest, rfl, _, port, handled⟩ | ⟨rfl, rfl⟩ | ⟨frame, rfl, sent⟩ |
    ⟨rfl, _, port, routed⟩ | ⟨_, rfl, _, _, port, _, routed⟩ | ⟨_, rfl, _, _, port, _, routed⟩ | ⟨other, ⟨inner⟩⟩
  · obtain ⟨samePort, sameRouted⟩ := handle_log handled
    exact .inl ⟨rfl, frame, by rw [port, samePort], sameRouted⟩
  · exact .inr ⟨by simp, rfl, prefix_refl _⟩
  · obtain ⟨port, routed, _⟩ := hostSends_port sent
    exact .inr ⟨by simp, routed, port ▸ prefix_append _ _⟩
  rotate_right
  · rw [inner.same]
    exact .inr ⟨other, rfl, prefix_refl _⟩
  all_goals exact .inr ⟨by simp, routed, port ▸ prefix_refl _⟩

/-! ## Room for every input -/

structure Roomy (mux : Mux) : Prop where
  held : mux.held = none
  inputs : ∀ channel, mux.unconsumed channel ≤ inputQueue
  out : mux.out.length ≤ outQueue

theorem start_roomy : Roomy .start where
  held := rfl
  inputs _ := by simp [Mux.unconsumed, Mux.start]
  out := by simp [Mux.start]

def Mux.queued (mux : Mux) (channel : UInt32) : Nat := ((mux.sessions channel).map (·.input.length)).getD 0

theorem unconsumed_eq (mux : Mux) (channel : UInt32) :
    mux.unconsumed channel = mux.port.countP (HostFrame.isInput channel) + mux.queued channel := rfl

theorem queued_setSession (mux : Mux) (channel other : UInt32) (session : Session) :
    (mux.setSession channel session).queued other =
      if other = channel then session.input.length else mux.queued other := by
  by_cases same : other = channel
  · subst same
    simp [Mux.queued, Mux.setSession]
  · simp [Mux.queued, Mux.setSession, same]

theorem queued_of_live (live : mux.sessions channel = some session) : mux.queued channel = session.input.length := by
  simp [Mux.queued, live]

theorem queued_removed (mux : Mux) (channel other : UInt32) :
    ((Function.update mux.sessions channel none other).map (·.input.length)).getD 0 ≤ mux.queued other := by
  by_cases same : other = channel
  · subst same
    simp
  · rw [Function.update_of_ne same]
    exact le_rfl

theorem Roomy.shrunk (roomy : Roomy mux) (port : next.port = mux.port) (held : next.held = mux.held)
    (queued : ∀ channel, next.queued channel ≤ mux.queued channel) (out : next.out.length ≤ outQueue) : Roomy next where
  held := held.trans roomy.held
  inputs channel := by
    have before := roomy.inputs channel
    have fewer := queued channel
    rw [unconsumed_eq] at before ⊢
    rw [port]
    omega
  out := out

theorem Roomy.routed (port : mux.held = none) (out : mux.out.length ≤ outQueue)
    (inputs : ∀ other, mux.unconsumed other + (if other = channel then 1 else 0) ≤ inputQueue) (input : Input) :
    Roomy (mux.routeInput channel input) := by
  have here := inputs channel
  rw [if_pos rfl, unconsumed_eq] at here
  simp only [Mux.routeInput]
  split
  · refine ⟨port, fun other => ?_, out⟩
    have other := inputs other
    omega
  rename_i session live
  rw [queued_of_live live] at here
  rw [if_pos (by omega)]
  refine ⟨port, fun other => ?_, out⟩
  have bound := inputs other
  rw [unconsumed_eq] at bound ⊢
  rw [queued_setSession]
  by_cases same : other = channel
  · subst same
    rw [if_pos rfl, length_append]
    rw [if_pos rfl, queued_of_live live] at bound
    exact bound
  rw [if_neg same]
  rw [if_neg same] at bound
  exact bound

theorem Roomy.handled (held : mux.held = none) (out : mux.out.length ≤ outQueue)
    (inputs : ∀ channel, mux.unconsumed channel + (if frame.isInput channel then 1 else 0) ≤ inputQueue)
    (handled : mux.handle frame = some next) : Roomy next := by
  have fewer : ∀ channel, mux.unconsumed channel ≤ inputQueue := by
    intro channel
    have bound := inputs channel
    omega
  have roomy : Roomy mux := ⟨held, fewer, out⟩
  have mine : ∀ channel other : UInt32, (decide (channel = other) = true) = (other = channel) := by
    intro channel other
    simp [eq_comm]
  cases frame with
  | data channel count | eof channel =>
    cases handled
    simp only [HostFrame.isInput, mine] at inputs
    exact Roomy.routed held out inputs _
  | openExec channel =>
    simp only [Mux.handle] at handled
    split at handled
    · rename_i room
      have more : (mux.out ++ [AgentFrame.ctrl]).length ≤ outQueue := by
        rw [length_append]
        exact room
      split at handled
      · cases handled
        exact roomy.shrunk rfl rfl (fun _ => le_rfl) more
      rename_i free
      cases handled
      refine roomy.shrunk rfl rfl (fun other => ?_) more
      show (mux.setSession channel .fresh).queued other ≤ mux.queued other
      rw [queued_setSession]
      split
      · exact Nat.zero_le _
      · exact le_rfl
    · cases handled
  | windowAdjust channel bytes =>
    simp only [Mux.handle] at handled
    split at handled
    · cases handled
      exact roomy
    rename_i session live
    cases handled
    refine roomy.shrunk rfl rfl (fun other => ?_) out
    rw [queued_setSession]
    split
    · rename_i same
      rw [same, queued_of_live live]
    · exact le_rfl
  | close channel =>
    cases handled
    exact roomy.shrunk rfl rfl (queued_removed mux channel) out
  | ping =>
    simp only [Mux.handle] at handled
    split at handled <;> cases handled
    rename_i room
    refine roomy.shrunk rfl rfl (fun _ => le_rfl) ?_
    rw [length_append]
    exact room

theorem Roomy.step (roomy : Roomy mux) (room : mux.roomy turn = true)
    (stepped : mux.step capacity turn = some next) : Roomy next := by
  rcases step_cases stepped with ⟨frame, rest, rfl, _, port, handled⟩ | ⟨_, rfl⟩ | ⟨frame, rfl, sent⟩ |
    ⟨_, waits, _⟩ | ⟨_, rfl, out, sessions, port, held, _⟩ | ⟨channel, rfl, sessions, out, port, held, _⟩ | ⟨_, ⟨inner⟩⟩
  · have held : { mux with port := rest, routed := mux.routed ++ [frame] }.held = none := roomy.held
    refine Roomy.handled held roomy.out ?_ handled
    intro channel
    have bound := roomy.inputs channel
    rw [unconsumed_eq, port, countP_cons] at bound
    show rest.countP (HostFrame.isInput channel) + mux.queued channel + _ ≤ inputQueue
    omega
  · exact roomy
  · obtain ⟨port, _, sessions, held, out⟩ := hostSends_port sent
    refine ⟨held.trans roomy.held, fun channel => ?_, by rw [out]; exact roomy.out⟩
    have bound := roomy.inputs channel
    have same : next.queued channel = mux.queued channel := by
      rw [Mux.queued, sessions]
      rfl
    rw [unconsumed_eq] at bound ⊢
    rw [port, countP_append, countP_singleton, same]
    split
    · rename_i mine
      have fewer : mux.unconsumed channel < inputQueue := by
        cases frame with
        | data other count | eof other =>
          simp only [HostFrame.isInput, decide_eq_true_iff] at mine
          subst mine
          simpa [Mux.roomy] using room
        | openExec other | windowAdjust other bytes | close other | ping => cases mine
      rw [unconsumed_eq] at fewer
      omega
    · omega
  · exact absurd roomy.held waits
  · refine roomy.shrunk port held (fun channel => ?_) ?_
    · rw [Mux.queued, sessions]
      exact le_rfl
    have bound := roomy.out
    rw [out, length_cons] at bound
    omega
  · refine roomy.shrunk port held (fun other => ?_) out
    rw [Mux.queued, sessions]
    exact queued_removed mux channel other
  · obtain ⟨shorter, few⟩ := Session.step_input inner.stepped
    rw [inner.same]
    refine roomy.shrunk rfl rfl (fun other => ?_) ?_
    · show (mux.setSession inner.channel inner.after).queued other ≤ mux.queued other
      rw [queued_setSession]
      split
      · rename_i same
        rw [same, queued_of_live inner.live]
        exact shorter
      · exact le_rfl
    show (mux.out ++ inner.frames).length ≤ outQueue
    have bound := roomy.out
    rw [length_append]
    rcases inner.room with none | space
    · rw [none, length_nil]
      exact bound
    · omega

theorem Roomy.reader_ready (roomy : Roomy mux) (waiting : mux.port ≠ []) (room : mux.out.length < outQueue) :
    (mux.step capacity .readFrame).isSome = true := by
  obtain ⟨frame, rest, port⟩ := exists_cons_of_ne_nil waiting
  simp only [Mux.step, roomy.held, port]
  cases frame with
  | openExec channel =>
    simp only [Mux.handle, room, if_true]
    split <;> rfl
  | data channel count => rfl
  | eof channel => rfl
  | windowAdjust channel bytes =>
    simp only [Mux.handle]
    split <;> rfl
  | close channel => rfl
  | ping => simp [Mux.handle, room]

theorem writer_ready (waiting : mux.out ≠ []) : (mux.step capacity .portWrites).isSome = true := by
  obtain ⟨frame, rest, out⟩ := exists_cons_of_ne_nil waiting
  simp only [Mux.step, out]
  cases frame <;> rfl

end

/-! ## Unending runs -/

section

variable {capacity : Nat} (execution : Execution capacity)

theorem Execution.roomy (room : ∀ time, (execution.states time).roomy (execution.turns time) = true) (time : Nat) :
    Roomy (execution.states time) := by
  induction time with
  | zero =>
    rw [execution.starts]
    exact start_roomy
  | succ time ih => exact ih.step (room time) (execution.steps time)

variable {early late : Nat}

theorem Execution.log_prefix (order : early ≤ late) :
    (execution.states early).routed ++ (execution.states early).port <+:
        (execution.states late).routed ++ (execution.states late).port ∧
      (execution.states early).routed.length ≤ (execution.states late).routed.length := by
  induction late, order using Nat.le_induction with
  | base => exact ⟨prefix_refl _, le_rfl⟩
  | succ late _ ih =>
    obtain ⟨log, routed⟩ := ih
    rcases step_log (execution.steps late) with ⟨_, frame, port, more⟩ | ⟨_, same, port⟩
    · have kept : (execution.states (late + 1)).routed ++ (execution.states (late + 1)).port =
          (execution.states late).routed ++ (execution.states late).port := by
        rw [more, port, append_assoc]
        rfl
      rw [kept, more, length_append]
      exact ⟨log, by omega⟩
    rw [same]
    refine ⟨log.trans ?_, routed⟩
    obtain ⟨sent, more⟩ := port
    rw [← more, ← append_assoc]
    exact prefix_append _ _

theorem Execution.port_waits (order : early ≤ late)
    (still : ∀ moment, early ≤ moment → execution.turns moment ≠ .readFrame)
    (waiting : (execution.states early).port ≠ []) : (execution.states late).port ≠ [] := by
  induction late, order using Nat.le_induction with
  | base => exact waiting
  | succ late order ih =>
    rcases step_log (execution.steps late) with ⟨reads, _⟩ | ⟨_, _, port⟩
    · exact absurd reads (still late order)
    intro empty
    rw [empty] at port
    exact ih (prefix_nil.mp port)

variable (room : ∀ time, (execution.states time).roomy (execution.turns time) = true)
include room

theorem Execution.reader_turn (fair : execution.Fair) {time : Nat} (waiting : (execution.states time).port ≠ []) :
    ∃ moment, time ≤ moment ∧ execution.turns moment = .readFrame := by
  by_contra never
  have still : ∀ moment, time ≤ moment → execution.turns moment ≠ .readFrame :=
    fun moment order reads => never ⟨moment, order, reads⟩
  refine never (fair.reader time ?_)
  intro later order
  have ready : ∀ moment, later ≤ moment → (execution.states moment).out.length < outQueue →
      ((execution.states moment).step capacity .readFrame).isSome = true := fun moment after space =>
    (execution.roomy room moment).reader_ready (execution.port_waits (by omega) still waiting) space
  by_cases busy : ∀ moment, later ≤ moment → (execution.states moment).out ≠ []
  · obtain ⟨moment, after, writes⟩ := fair.writer later fun moment after => writer_ready (busy moment after)
    have bound := (execution.roomy room moment).out
    have stepped := execution.steps moment
    rw [writes] at stepped
    refine ⟨moment + 1, by omega, ready (moment + 1) (by omega) ?_⟩
    rcases step_cases stepped with ⟨_, _, other, _⟩ | ⟨other, _⟩ | ⟨_, other, _⟩ | ⟨other, _⟩ | ⟨_, _, out, _⟩ |
      ⟨_, other, _⟩ | ⟨_, ⟨inner⟩⟩
    · cases other
    · cases other
    · cases other
    · cases other
    · rw [out, length_cons] at bound
      omega
    · cases other
    · cases inner.stepped
  · simp only [not_forall, not_not] at busy
    obtain ⟨moment, after, empty⟩ := busy
    exact ⟨moment, after, ready moment after (by rw [empty]; decide)⟩

theorem Execution.routes (fair : execution.Fair) (time length : Nat)
    (sent : length ≤ ((execution.states time).routed ++ (execution.states time).port).length) :
    ∃ moment, time ≤ moment ∧ length ≤ (execution.states moment).routed.length := by
  induction missing : length - (execution.states time).routed.length using Nat.strong_induction_on
    generalizing time with
  | _ missing ih =>
    by_cases enough : length ≤ (execution.states time).routed.length
    · exact ⟨time, le_rfl, enough⟩
    have waiting : (execution.states time).port ≠ [] := by
      intro empty
      rw [empty, append_nil] at sent
      omega
    obtain ⟨moment, after, reads⟩ := execution.reader_turn room fair waiting
    rcases step_log (execution.steps moment) with ⟨_, frame, _, more⟩ | ⟨other, _⟩
    · -- one more frame is routed, and what had been sent is still there
      have before := (execution.log_prefix after).2
      have log := (execution.log_prefix (Nat.le_succ_of_le after)).1.length_le
      have longer : (execution.states (moment + 1)).routed.length = (execution.states moment).routed.length + 1 := by
        rw [more, length_append, length_singleton]
      obtain ⟨last, order, routed⟩ := ih _ (by omega) (moment + 1) (sent.trans log) rfl
      exact ⟨last, by omega, routed⟩
    · exact absurd reads other

/-- If the host never sends an input while as many of the channel's inputs as its queue holds are unconsumed, the
reader never waits for room, and under a fair schedule every frame that the host has sent is routed, in order. -/
theorem reader_routes_every_frame : (∀ time, (execution.states time).held = none) ∧
      (execution.Fair → ∀ time, ∃ moment, time ≤ moment ∧
        (execution.states time).routed ++ (execution.states time).port <+: (execution.states moment).routed) := by
  refine ⟨fun time => (execution.roomy room time).held, fun fair time => ?_⟩
  obtain ⟨moment, after, routed⟩ := execution.routes room fair time _ le_rfl
  refine ⟨moment, after, ?_⟩
  exact prefix_of_prefix_length_le (execution.log_prefix after).1 (prefix_append _ _) routed

end

def openedTurns : Nat → Turn
  | 0 => .hostSends (.openExec 1)
  | 1 => .readFrame
  | 2 => .hostSends (.data 1 5)
  | 3 => .hostSends (.windowAdjust 1 7)
  | 4 => .readFrame
  | 5 => .portWrites
  | 6 => .readFrame
  | _ => .idle

def pipeCapacity : Nat := 64 * 1024

def openedStates : Nat → Mux
  | 0 => .start
  | time + 1 => ((openedStates time).step pipeCapacity (openedTurns time)).getD (openedStates time)

theorem openedStates_steps (time : Nat) :
    (openedStates time).step pipeCapacity (openedTurns time) = some (openedStates (time + 1)) := by
  have enabled : ((openedStates time).step pipeCapacity (openedTurns time)).isSome = true := by
    match time with
    | 0 | 1 | 2 | 3 | 4 | 5 | 6 => decide +kernel
    | time + 7 => rfl
  obtain ⟨next, stepped⟩ := Option.isSome_iff_exists.mp enabled
  rw [openedStates, stepped]
  rfl

theorem openedStates_end (time : Nat) : openedStates (time + 7) = openedStates 7 := by
  induction time with
  | zero => rfl
  | succ time ih => exact ih

def openedExecution : Execution pipeCapacity := ⟨openedStates, openedTurns, rfl, openedStates_steps⟩

theorem openedExecution_roomy (time : Nat) : (openedStates time).roomy (openedTurns time) = true := by
  match time with
  | 0 | 1 | 2 | 3 | 4 | 5 | 6 => decide +kernel
  | time + 7 => rfl

theorem openedExecution_fair : openedExecution.Fair := by
  have ended : ∀ moment, 7 ≤ moment → openedExecution.states moment = openedStates 7 := by
    intro moment order
    obtain ⟨time, rfl⟩ := Nat.exists_eq_add_of_le' order
    exact openedStates_end time
  have idleReader : ((openedStates 7).step pipeCapacity .readFrame).isSome = false := by decide +kernel
  have idleWriter : ((openedStates 7).step pipeCapacity .portWrites).isSome = false := by decide +kernel
  constructor
  · intro time often
    obtain ⟨moment, after, enabled⟩ := often (time + 7) (by omega)
    rw [ended moment (by omega), idleReader] at enabled
    cases enabled
  intro time always
  have enabled := always (time + 7) (by omega)
  rw [ended (time + 7) (by omega), idleWriter] at enabled
  cases enabled

theorem reader_routes_opened_session : (∀ time, (openedExecution.states time).held = none) ∧
      ∀ time, ∃ moment, time ≤ moment ∧ (openedExecution.states time).routed ++ (openedExecution.states time).port <+:
        (openedExecution.states moment).routed := by
  obtain ⟨free, routes⟩ := reader_routes_every_frame openedExecution openedExecution_roomy
  exact ⟨free, routes openedExecution_fair⟩

/-! ## A reader that waits forever -/

/-- What may happen while the child of a channel is in the middle of a write. -/
def Turn.midWrite (channel : UInt32) (output : Output) : Turn → Bool
  | .childReads other _ | .childCloses other | .childExits other => other ≠ channel
  | .childWrites other pipe _ => other ≠ channel ∨ pipe = output
  | _ => true

structure Session.Stuck (capacity : Nat) (output : Output) (session : Session) : Prop where
  full : inputQueue ≤ session.input.length
  writing : ∃ left size, session.chunk = some (left + 1, size)
  stdin : capacity ≤ session.stdin
  reading : session.reading = true
  alive : session.exited = false
  pipe : capacity ≤ (session.pumps output).pipe
  unsent : (session.pumps output).chunk ≠ 0
  credit : session.credit = ⟨0, false⟩

structure Stuck (capacity : Nat) (channel : UInt32) (output : Output) (mux : Mux) : Prop where
  held : ∃ input, mux.held = some (channel, input)
  session : ∃ session, mux.sessions channel = some session ∧ session.Stuck capacity output

section

variable {capacity : Nat} {mux next : Mux} {channel : UInt32} {output : Output}

theorem Session.Stuck.step (stuck : session.Stuck capacity output) (inside : turn.channel = some channel)
    (writes : turn.midWrite channel output = true)
    (stepped : session.step capacity channel turn = some (after, frames)) :
    after.Stuck capacity output ∧ ∀ count, turn ≠ .childWrites channel output count := by
  obtain ⟨full, ⟨left, size, chunk⟩, stdin, reading, alive, pipe, unsent, credit⟩ := stuck
  have noCredit : ∀ want, session.credit.take want = none := by
    intro want
    simp [Credit.take, credit]
  cases turn with
  | pumpTakes _ | pumpDone _ | pumpFails _ => simp [Session.step, chunk, reading] at stepped
  | pumpWrites _ count =>
    simp only [Session.step, chunk] at stepped
    rw [if_neg (by omega)] at stepped
    cases stepped
  | childReads _ count | childCloses _ | childExits _ =>
    cases inside
    simp [Turn.midWrite] at writes
  | childWrites _ written count =>
    cases inside
    simp only [Turn.midWrite, ne_eq, not_true_eq_false, false_or, decide_eq_true_eq] at writes
    subst writes
    simp only [Session.step] at stepped
    rw [if_neg (by omega)] at stepped
    cases stepped
  | outReads _ other count =>
    simp only [Session.step] at stepped
    split at stepped
    · rename_i idle
      cases stepped
      have apart : output ≠ other := by
        rintro rfl
        exact unsent idle.1
      refine ⟨⟨full, ⟨left, size, chunk⟩, stdin, reading, alive, ?_, ?_, credit⟩, by simp⟩
      · simpa [Function.update_of_ne apart] using pipe
      · simpa [Function.update_of_ne apart] using unsent
    · cases stepped
  | outSends _ other => simp [Session.step, noCredit] at stepped
  | idle | hostSends frame | readFrame | enqueue | portWrites | reaped _ => cases stepped

theorem Stuck.step (stuck : Stuck capacity channel output mux) (writes : turn.midWrite channel output = true)
    (stepped : mux.step capacity turn = some next) : Stuck capacity channel output next ∧ next.held = mux.held ∧
      next.routed = mux.routed ∧ ∀ count, turn ≠ .childWrites channel output count := by
  obtain ⟨⟨input, held⟩, session, live, still⟩ := stuck
  have kept : next.sessions channel = mux.sessions channel → next.held = mux.held → next.routed = mux.routed →
      Stuck capacity channel output next ∧ next.held = mux.held ∧ next.routed = mux.routed := by
    intro sessions sameHeld routed
    exact ⟨⟨⟨input, sameHeld.trans held⟩, session, sessions.trans live, still⟩, sameHeld, routed⟩
  have waiting : turn ≠ .enqueue := by
    rintro rfl
    have full := still.full
    simp [Mux.step, held, live, Nat.not_lt.mpr full] at stepped
  have unreaped : turn ≠ .reaped channel := by
    rintro rfl
    simp [Mux.step, live, Session.drained, still.alive] at stepped
  have idle (sessions : next.sessions channel = mux.sessions channel) (sameHeld : next.held = mux.held)
      (routed : next.routed = mux.routed) (other : turn.channel ≠ some channel) :
      Stuck capacity channel output next ∧ next.held = mux.held ∧ next.routed = mux.routed ∧
        ∀ count, turn ≠ .childWrites channel output count := by
    obtain ⟨still, same⟩ := kept sessions sameHeld routed
    refine ⟨still, same.1, same.2, ?_⟩
    rintro count rfl
    exact other rfl
  rcases step_cases stepped with ⟨_, _, _, free, _⟩ | ⟨rfl, rfl⟩ | ⟨_, rfl, sent⟩ | ⟨enqueues, _⟩ |
    ⟨_, rfl, _, sessions, _, sameHeld, routed⟩ | ⟨other, rfl, sessions, _, _, sameHeld, routed⟩ | ⟨_, ⟨inner⟩⟩
  · rw [held] at free
    cases free
  · exact idle rfl rfl rfl nofun
  · obtain ⟨_, routed, sessions, sameHeld, _⟩ := hostSends_port sent
    exact idle (by rw [sessions]) sameHeld routed nofun
  · exact absurd enqueues waiting
  · exact idle (by rw [sessions]) sameHeld routed nofun
  · refine idle ?_ sameHeld routed nofun
    rw [sessions, Function.update_of_ne]
    rintro rfl
    exact unreaped rfl
  · by_cases same : inner.channel = channel
    · have found := inner.live
      rw [same, live] at found
      cases found
      obtain ⟨stays, blocked⟩ := still.step (same ▸ inner.inside) writes (same ▸ inner.stepped)
      rw [inner.same]
      refine ⟨⟨⟨input, held⟩, inner.after, ?_, stays⟩, rfl, rfl, blocked⟩
      simp [Mux.setSession, same]
    refine idle ?_ (by rw [inner.same]; rfl) (by rw [inner.same]; rfl) ?_
    · rw [inner.same]
      exact Function.update_of_ne (Ne.symm same) _ _
    · rw [inner.inside]
      exact fun found => same (Option.some.inj found)

theorem Stuck.run (stuck : Stuck capacity channel output mux) {turns : List Turn}
    (writes : ∀ turn ∈ turns, turn.midWrite channel output = true) (ran : mux.run capacity turns = some next) :
    next.held = mux.held ∧ next.routed = mux.routed ∧ ∀ count, .childWrites channel output count ∉ turns := by
  induction turns generalizing mux with
  | nil =>
    cases ran
    exact ⟨rfl, rfl, fun _ => not_mem_nil⟩
  | cons turn turns ih =>
    simp only [Mux.run, foldlM_cons, Option.bind_eq_bind, Option.bind_eq_some_iff] at ran
    obtain ⟨middle, first, rest⟩ := ran
    obtain ⟨this, later⟩ := forall_mem_cons.mp writes
    obtain ⟨still, held, routed, blocked⟩ := stuck.step this first
    obtain ⟨restHeld, restRouted, restBlocked⟩ := ih still later rest
    refine ⟨restHeld.trans held, restRouted.trans routed, fun count member => ?_⟩
    rcases mem_cons.mp member with same | member
    · exact blocked count same.symm
    · exact restBlocked count member

end

/-- The child has used up the credit for its output when the host sends one large frame and 514 of one byte each; the
window adjustment for what the host has read comes after them. -/
def smallFrames : List Turn :=
  [.hostSends (.openExec 1), .readFrame, .portWrites, .hostSends (.data 1 1), .readFrame, .pumpTakes 1,
    .pumpWrites 1 1, .pumpDone 1, .childReads 1 1] ++
  (List.replicate 8 [.childWrites 1 .stdout 32768, .outReads 1 .stdout 32768, .outSends 1 .stdout, .portWrites]).flatten ++
  [.childWrites 1 .stdout 32768, .outReads 1 .stdout 32768, .childWrites 1 .stdout 65536, .hostSends (.data 1 65536), .readFrame,
    .pumpTakes 1, .pumpWrites 1 65536, .pumpDone 1, .hostSends (.data 1 1), .readFrame, .pumpTakes 1] ++
  (List.replicate 513 [.hostSends (.data 1 1), .readFrame]).flatten ++
  [.hostSends (.windowAdjust 1 262144)]

def smallFramesEnd (mux : Mux) : Bool :=
  decide (mux.held = some (1, .bytes 1)) && decide (mux.port = [.windowAdjust 1 262144]) &&
    decide (.windowAdjust 1 262144 ∉ mux.routed) &&
    (mux.sessions 1).any fun session =>
      decide (session.input.length = 512) && decide (session.chunk = some (1, 1)) && decide (session.stdin = 65536) &&
        decide (session.reading = true) && decide (session.exited = false) &&
        decide (session.pumps .stdout = ⟨65536, 32768⟩) && decide (session.credit = ⟨0, false⟩)

/-- While the child is in the middle of its write the reader holds the last small frame, the window adjustment behind it
is not routed, and the write does not get on. -/
theorem smallFrames_block_reader :
    ∃ mux, Mux.start.run pipeCapacity smallFrames = some mux ∧ mux.held = some (1, .bytes 1) ∧
      .windowAdjust 1 262144 ∈ mux.port ∧
      ∀ turns next, (∀ turn ∈ turns, turn.midWrite 1 .stdout = true) → mux.run pipeCapacity turns = some next →
        next.held = some (1, .bytes 1) ∧ .windowAdjust 1 262144 ∉ next.routed ∧
          ∀ count, .childWrites 1 .stdout count ∉ turns := by
  have blocked : (Mux.start.run pipeCapacity smallFrames).any smallFramesEnd = true := by decide +kernel
  obtain ⟨mux, ran⟩ : ∃ mux, Mux.start.run pipeCapacity smallFrames = some mux := by
    cases ran : Mux.start.run pipeCapacity smallFrames with
    | none =>
      rw [ran] at blocked
      cases blocked
    | some mux => exact ⟨mux, rfl⟩
  rw [ran, Option.any_some] at blocked
  simp only [smallFramesEnd, Bool.and_eq_true, decide_eq_true_iff] at blocked
  obtain ⟨⟨⟨held, port⟩, unrouted⟩, ended⟩ := blocked
  cases live : mux.sessions 1 with
  | none => simp [live] at ended
  | some session =>
  simp only [live, Option.any_some, Bool.and_eq_true, decide_eq_true_iff] at ended
  obtain ⟨⟨⟨⟨⟨⟨input, chunk⟩, stdin⟩, reading⟩, alive⟩, pump⟩, credit⟩ := ended
  have stuck : Stuck pipeCapacity 1 .stdout mux := by
    refine ⟨⟨_, held⟩, session, live, Nat.le_of_eq input.symm, ⟨0, 1, chunk⟩, Nat.le_of_eq stdin.symm, reading, alive,
      ?_, ?_, credit⟩
    · rw [pump]
      decide
    · rw [pump]
      decide
  refine ⟨mux, ran, held, by simp [port], fun turns next writes continued => ?_⟩
  obtain ⟨sameHeld, sameRouted, unwritten⟩ := stuck.run writes continued
  rw [sameHeld, sameRouted]
  exact ⟨held, unrouted, unwritten⟩

end Vmlab.Agent
