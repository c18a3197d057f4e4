import Vmlab.Agent.HostCalls

/-!
# Whole frames and whole records

The two locks keep the bytes of a frame and the frames of a record together as long as their holder runs to the end,
or is cancelled at a point where nothing, or everything, of them is on the wire.
-/

namespace Vmlab.Agent

open Library List
open Function (update update_of_ne update_self)

/-! ## Who holds the locks -/

def Phase.isWriting : Phase → Bool
  | .writing _ _ _ => true
  | _ => false

def Phase.credited : Phase → Bool
  | .queued _ _ | .writing _ _ _ => true
  | _ => false

def Task.Fits : Task → Prop
  | ⟨.control payload, _⟩ => payload.length ≤ maxPayload
  | ⟨.record _ _, .queued _ granted⟩ => granted ≤ maxPayload
  | ⟨.record _ _, .writing _ granted _⟩ => granted ≤ maxPayload
  | _ => True

structure Locks (host : Host) : Prop where
  writer : ∀ id, host.writer = some id ↔ ∃ task, host.tasks id = some task ∧ task.phase.isWriting = true
  wire : ∀ channel id, host.wire channel = some id ↔
    ∃ record phase, host.tasks id = some ⟨.record channel record, phase⟩ ∧ phase ≠ .waiting
  fits : ∀ id task, host.tasks id = some task → task.Fits

theorem connected_locks : Locks Host.connected where
  writer _ := by simp [Host.connected]
  wire _ _ := by simp [Host.connected]
  fits _ _ found := by cases found

variable {off granted written : Nat} {work : Work}

section

variable {host : Host} {id : Nat} {task : Task} {channel : UInt32} {record : Record} {phase : Phase}

theorem Locks.holds (locks : Locks host)
    (found : host.tasks id = some ⟨work, .writing off granted written⟩) : host.writer = some id :=
  (locks.writer id).mpr ⟨_, found, rfl⟩

theorem Locks.writer_ne (locks : Locks host) (found : host.tasks id = some task)
    (idle : task.phase.isWriting = false) : host.writer ≠ some id := by
  intro holds
  obtain ⟨other, same, writing⟩ := (locks.writer id).mp holds
  rw [found] at same
  cases same
  rw [idle] at writing
  cases writing

theorem Locks.free (locks : Locks host) (fresh : host.tasks id = none) :
    host.writer ≠ some id ∧ ∀ channel, host.wire channel ≠ some id := by
  constructor
  · intro holds
    obtain ⟨task, found, _⟩ := (locks.writer id).mp holds
    rw [fresh] at found
    cases found
  intro channel holds
  obtain ⟨record, phase, found, _⟩ := (locks.wire channel id).mp holds
  rw [fresh] at found
  cases found

theorem Locks.wire_eq (locks : Locks host) (found : host.tasks id = some ⟨.record channel record, phase⟩)
    {other : UInt32} (holds : host.wire other = some id) : other = channel := by
  obtain ⟨_, _, same, _⟩ := (locks.wire other id).mp holds
  rw [found] at same
  cases same
  rfl

theorem released_iff {holder : Option Nat} {other : Nat} (apart : other ≠ id) :
    (if holder = some id then none else holder) = some other ↔ holder = some other := by
  split
  · rename_i holds
    simp [holds, Ne.symm apart]
  · rfl

theorem Locks.dropTask (locks : Locks host) (id : Nat) : Locks (host.dropTask id) where
  writer other := by
    have before := locks.writer other
    by_cases same : other = id
    · subst same
      by_cases holds : host.writer = some other <;> simp [Host.dropTask, holds]
    · simp only [Host.dropTask, update_of_ne same]
      exact (released_iff same).trans before
  wire channel other := by
    have before := locks.wire channel other
    by_cases same : other = id
    · subst same
      by_cases holds : host.wire channel = some other <;> simp [Host.dropTask, holds]
    · simp only [Host.dropTask, update_of_ne same]
      exact (released_iff same).trans before
  fits other task found := by
    by_cases same : other = id
    · subst same
      simp [Host.dropTask] at found
    · simp only [Host.dropTask, update_of_ne same] at found
      exact locks.fits other task found

theorem Locks.setTask (locks : Locks host) {task : Task} {next : Host}
    (tasks : next.tasks = update host.tasks id (some task))
    (writer : ∀ other, other ≠ id → (next.writer = some other ↔ host.writer = some other))
    (wire : ∀ channel other, other ≠ id → (next.wire channel = some other ↔ host.wire channel = some other))
    (ownWriter : next.writer = some id ↔ task.phase.isWriting = true)
    (ownWire : ∀ channel, next.wire channel = some id ↔
      ∃ record phase, task = ⟨.record channel record, phase⟩ ∧ phase ≠ .waiting) (fits : task.Fits) : Locks next where
  writer other := by
    by_cases same : other = id
    · subst same
      simp [tasks, ownWriter]
    · rw [writer other same, tasks, update_of_ne same]
      exact locks.writer other
  wire channel other := by
    by_cases same : other = id
    · subst same
      simp [tasks, ownWire]
    · rw [wire channel other same, tasks, update_of_ne same]
      exact locks.wire channel other
  fits other task found := by
    by_cases same : other = id
    · subst same
      rw [tasks, update_self] at found
      cases found
      exact fits
    · rw [tasks, update_of_ne same] at found
      exact locks.fits other task found

end

/-! ## What is unfinished -/

def Host.credited (host : Host) (channel : UInt32) : Prop :=
  ∃ id task, host.wire channel = some id ∧ host.tasks id = some task ∧ task.phase.credited = true

section

variable {host next : Host} {id : Nat} {task : Task} {channel : UInt32}

theorem unfinishedFrame_free (free : host.writer = none) : host.unfinishedFrame = [] := by
  simp [Host.unfinishedFrame, free]

theorem unfinishedFrame_held (holds : host.writer = some id) (found : host.tasks id = some task) :
    host.unfinishedFrame = task.unfinishedFrame := by
  simp [Host.unfinishedFrame, holds, found]

theorem unfinishedFrame_congr (writer : next.writer = host.writer)
    (tasks : ∀ id, host.writer = some id → next.tasks id = host.tasks id) :
    next.unfinishedFrame = host.unfinishedFrame := by
  simp only [Host.unfinishedFrame, writer]
  cases holder : host.writer with
  | none => rfl
  | some id => simp [tasks id holder]

theorem unfinishedRecord_free (free : host.wire channel = none) : host.unfinishedRecord channel = [] := by
  simp [Host.unfinishedRecord, free]

theorem unfinishedRecord_held (holds : host.wire channel = some id) (found : host.tasks id = some task) :
    host.unfinishedRecord channel = task.unfinishedRecord := by
  simp [Host.unfinishedRecord, holds, found]

variable (wire : next.wire channel = host.wire channel)
  (tasks : ∀ id, host.wire channel = some id → next.tasks id = host.tasks id)
include wire tasks

theorem unfinishedRecord_congr : next.unfinishedRecord channel = host.unfinishedRecord channel := by
  simp only [Host.unfinishedRecord, wire]
  cases holder : host.wire channel with
  | none => rfl
  | some id => simp [tasks id holder]

theorem credited_congr : next.credited channel ↔ host.credited channel := by
  simp only [Host.credited, wire]
  constructor
  · rintro ⟨id, task, holds, found, credit⟩
    exact ⟨id, task, holds, (tasks id holds).symm.trans found, credit⟩
  · rintro ⟨id, task, holds, found, credit⟩
    exact ⟨id, task, holds, (tasks id holds).trans found, credit⟩

end

structure Stream (host : Host) (frames : List Frame) : Prop where
  accepted : ∀ frame ∈ frames, frame.payload.length ≤ maxPayload
  socket : ∃ cut, host.socket = frames.flatMap encodeFrame ++ cut ∧ (∃ frame, cut <+: encodeFrame frame) ∧
    (host.broken = false → cut = host.unfinishedFrame)
  channel : ∀ channel, ∃ (records : List Record) (cut : List UInt8),
    dataOn channel frames = records.flatMap encodeRecord ++ cut ∧ (∃ record, cut <+: encodeRecord record) ∧
      (host.broken = false → host.closed channel = false ∨ host.credited channel →
        cut = host.unfinishedRecord channel)

theorem Stream.intact {host : Host} {frames : List Frame} (stream : Stream host frames) : host.Intact := by
  refine ⟨frames, stream.accepted, stream.socket, fun channel => ?_⟩
  obtain ⟨records, cut, data, shape, rest⟩ := stream.channel channel
  exact ⟨records, cut, data, shape, fun up isOpen => rest up (.inl isOpen)⟩

theorem connected_stream : Stream Host.connected [] where
  accepted _ member := by cases member
  socket := ⟨[], rfl, ⟨⟨.ctrl, 0, []⟩, nil_prefix⟩, fun _ => rfl⟩
  channel _ := ⟨[], [], rfl, ⟨⟨[], []⟩, nil_prefix⟩, fun _ _ => rfl⟩

section

variable {host next : Host} {frames : List Frame} {id : Nat} {channel : UInt32} {record : Record}

section

variable (stream : Stream host frames) (socket : next.socket = host.socket)
  (broken : next.broken = false → host.broken = false)
include stream socket broken

theorem Stream.quiet (frame : next.broken = false → next.unfinishedFrame = host.unfinishedFrame)
    (channels : ∀ channel, next.broken = false → next.closed channel = false ∨ next.credited channel →
      (host.closed channel = false ∨ host.credited channel) ∧
        next.unfinishedRecord channel = host.unfinishedRecord channel) : Stream next frames where
  accepted := stream.accepted
  socket := by
    obtain ⟨cut, bytes, shape, rest⟩ := stream.socket
    refine ⟨cut, socket.trans bytes, shape, fun up => ?_⟩
    rw [frame up]
    exact rest (broken up)
  channel channel := by
    obtain ⟨records, cut, data, shape, rest⟩ := stream.channel channel
    refine ⟨records, cut, data, shape, fun up live => ?_⟩
    obtain ⟨liveBefore, same⟩ := channels channel up live
    rw [same]
    exact rest (broken up) liveBefore

theorem Stream.environment (tasks : next.tasks = host.tasks)
    (writer : next.writer = host.writer) (wire : next.wire = host.wire)
    (closed : ∀ channel, next.closed channel = false → host.closed channel = false) : Stream next frames := by
  refine stream.quiet socket broken (fun _ => unfinishedFrame_congr writer fun _ _ => by rw [tasks]) ?_
  intro channel _ live
  have same : ∀ id, host.wire channel = some id → next.tasks id = host.tasks id := fun _ _ => by rw [tasks]
  refine ⟨?_, unfinishedRecord_congr (by rw [wire]) same⟩
  rcases live with isOpen | credited
  · exact .inl (closed channel isOpen)
  · exact .inr ((credited_congr (by rw [wire]) same).mp credited)

end

theorem Stream.started (locks : Locks host) (stream : Stream host frames) (fresh : host.tasks id = none)
    (work : Work) : Stream (host.setTask id ⟨work, .waiting⟩) frames := by
  have free := locks.free fresh
  have others : ∀ other, other ≠ id → (host.setTask id ⟨work, .waiting⟩).tasks other = host.tasks other :=
    fun other apart => update_of_ne apart _ _
  refine stream.quiet rfl (fun up => up) (fun _ => unfinishedFrame_congr rfl fun other holds => others other ?_) ?_
  · rintro rfl
    exact free.1 holds
  intro channel _ live
  have same : ∀ other, host.wire channel = some other →
      (host.setTask id ⟨work, .waiting⟩).tasks other = host.tasks other := by
    intro other holds
    refine others other ?_
    rintro rfl
    exact free.2 channel holds
  have held : (host.setTask id ⟨work, .waiting⟩).credited channel ↔ host.credited channel := credited_congr rfl same
  rw [held] at live
  exact ⟨live, unfinishedRecord_congr rfl same⟩

theorem other_channel (next : Host) (locks : Locks host) {phase : Phase}
    (found : host.tasks id = some ⟨.record channel record, phase⟩)
    (tasks : ∀ other, other ≠ id → next.tasks other = host.tasks other)
    (wire : ∀ other, other ≠ channel → next.wire other = host.wire other) {other : UInt32} (apart : other ≠ channel) :
    (next.credited other ↔ host.credited other) ∧ next.unfinishedRecord other = host.unfinishedRecord other := by
  have same : ∀ holder, host.wire other = some holder → next.tasks holder = host.tasks holder := by
    intro holder holds
    refine tasks holder ?_
    rintro rfl
    exact apart (locks.wire_eq found holds)
  exact ⟨credited_congr (wire other apart) same, unfinishedRecord_congr (wire other apart) same⟩

theorem Stream.moved (locks : Locks host) (stream : Stream host frames) {phase : Phase}
    (found : host.tasks id = some ⟨.record channel record, phase⟩)
    (tasks : ∀ other, other ≠ id → next.tasks other = host.tasks other)
    (wire : ∀ other, other ≠ channel → next.wire other = host.wire other)
    (socket : next.socket = host.socket) (broken : next.broken = host.broken) (closed : next.closed = host.closed)
    (frame : next.broken = false → next.unfinishedFrame = host.unfinishedFrame)
    (own : next.broken = false → host.closed channel = false ∨ next.credited channel →
      (host.closed channel = false ∨ host.credited channel) ∧
        next.unfinishedRecord channel = host.unfinishedRecord channel) : Stream next frames := by
  refine stream.quiet socket (fun up => broken ▸ up) frame ?_
  intro other up live
  rw [closed] at live
  by_cases same : other = channel
  · subst same
    exact own up live
  obtain ⟨credited, unfinished⟩ := other_channel next locks found tasks wire same
  rw [credited] at live
  exact ⟨live, unfinished⟩

theorem dropTask_tasks {other : Nat} (apart : other ≠ id) : (host.dropTask id).tasks other = host.tasks other :=
  update_of_ne apart _ _

theorem dropTask_wire_self (holds : host.wire channel = some id) : (host.dropTask id).wire channel = none := by
  simp [Host.dropTask, holds]

theorem dropTask_wire_other (free : host.wire channel ≠ some id) :
    (host.dropTask id).wire channel = host.wire channel := by
  simp [Host.dropTask, free]

theorem dropTask_writer_other (free : host.writer ≠ some id) : (host.dropTask id).writer = host.writer := by
  simp [Host.dropTask, free]

theorem not_credited_of_free (free : host.wire channel = none) : ¬ host.credited channel := by
  rintro ⟨_, _, holds, _⟩
  rw [free] at holds
  cases holds

theorem dropTask_channel (unheld : host.wire channel ≠ some id) :
    ((host.dropTask id).credited channel ↔ host.credited channel) ∧
      (host.dropTask id).unfinishedRecord channel = host.unfinishedRecord channel := by
  have same : ∀ other, host.wire channel = some other → (host.dropTask id).tasks other = host.tasks other := by
    intro other holder
    refine dropTask_tasks ?_
    rintro rfl
    exact unheld holder
  have wire := dropTask_wire_other unheld
  exact ⟨credited_congr wire same, unfinishedRecord_congr wire same⟩

theorem Stream.dropped (locks : Locks host) (stream : Stream host frames) {phase : Phase}
    (found : host.tasks id = some ⟨.record channel record, phase⟩)
    (frame : host.broken = false → (host.dropTask id).unfinishedFrame = host.unfinishedFrame)
    (nothing : host.closed channel = true ∨ Task.unfinishedRecord ⟨.record channel record, phase⟩ = []) :
    Stream (host.dropTask id) frames := by
  have others : ∀ other, other ≠ channel → (host.dropTask id).wire other = host.wire other :=
    fun other apart => dropTask_wire_other fun holds => apart (locks.wire_eq found holds)
  refine stream.moved locks found (fun other apart => dropTask_tasks apart) others rfl rfl rfl frame ?_
  intro _ live
  by_cases holds : host.wire channel = some id
  · have free := dropTask_wire_self holds
    rcases live with isOpen | credited
    · refine ⟨.inl isOpen, ?_⟩
      rw [unfinishedRecord_free free, unfinishedRecord_held holds found]
      rcases nothing with closed | nothing
      · rw [isOpen] at closed
        cases closed
      · exact nothing.symm
    · exact absurd credited (not_credited_of_free free)
  · obtain ⟨credited, unfinished⟩ := dropTask_channel holds
    rw [credited] at live
    exact ⟨live, unfinished⟩

theorem Stream.completed (locks : Locks host) (stream : Stream host frames)
    (found : host.tasks id = some ⟨.record channel record, .crediting off⟩)
    (whole : (encodeRecord record).length ≤ off) : Stream (host.dropTask id) frames := by
  have holds : host.wire channel = some id := (locks.wire channel id).mpr ⟨record, _, found, by simp⟩
  have free := dropTask_wire_self holds
  have unheld := locks.writer_ne found rfl
  have sameFrame : (host.dropTask id).unfinishedFrame = host.unfinishedFrame := by
    refine unfinishedFrame_congr (dropTask_writer_other unheld) fun other holder => dropTask_tasks ?_
    rintro rfl
    exact unheld holder
  constructor
  · exact stream.accepted
  · obtain ⟨cut, bytes, shape, rest⟩ := stream.socket
    refine ⟨cut, bytes, shape, fun up => ?_⟩
    rw [sameFrame]
    exact rest up
  intro other
  obtain ⟨records, cut, data, shape, rest⟩ := stream.channel other
  by_cases same : other = channel
  · subst same
    by_cases up : host.broken = false ∧ host.closed other = false
    · -- the record that was being sent is one more whole record
      have sent := rest up.1 (.inl up.2)
      rw [unfinishedRecord_held holds found] at sent
      refine ⟨records ++ [record], [], ?_, ⟨record, nil_prefix⟩, fun _ _ => ?_⟩
      · rw [data, sent, flatMap_append, append_nil]
        simp only [Task.unfinishedRecord, take_of_length_le whole, flatMap_cons, flatMap_nil, append_nil]
      · rw [unfinishedRecord_free free]
    refine ⟨records, cut, data, shape, fun still live => ?_⟩
    rcases live with isOpen | credited
    · exact absurd ⟨still, isOpen⟩ up
    · exact absurd credited (not_credited_of_free free)
  have others : ∀ other, other ≠ channel → (host.dropTask id).wire other = host.wire other :=
    fun other apart => dropTask_wire_other fun holder => apart (locks.wire_eq found holder)
  obtain ⟨credited, unfinished⟩ := other_channel (host.dropTask id) locks found
    (fun other apart => dropTask_tasks apart) others same
  refine ⟨records, cut, data, shape, fun up live => ?_⟩
  rw [unfinished]
  rw [credited] at live
  exact rest up live

variable {payload : List UInt8}

theorem Locks.wire_control (locks : Locks host) {phase : Phase}
    (found : host.tasks id = some ⟨.control payload, phase⟩) (channel : UInt32) : host.wire channel ≠ some id := by
  intro holds
  obtain ⟨_, _, same, _⟩ := (locks.wire channel id).mp holds
  rw [found] at same
  cases same

theorem channels_kept (next : Host) {task after : Task} (found : host.tasks id = some task)
    (tasks : next.tasks = update host.tasks id (some after)) (wire : next.wire = host.wire)
    (kept : (after.unfinishedRecord = task.unfinishedRecord ∧ after.phase.credited = task.phase.credited) ∨
      ∀ channel, host.wire channel ≠ some id) (channel : UInt32) :
    (next.credited channel ↔ host.credited channel) ∧
      next.unfinishedRecord channel = host.unfinishedRecord channel := by
  by_cases holds : host.wire channel = some id
  · obtain ⟨record, credit⟩ := kept.resolve_right fun free => free channel holds
    have nextHolds : next.wire channel = some id := by rw [wire, holds]
    have nextFound : next.tasks id = some after := by rw [tasks, update_self]
    constructor
    · simp only [Host.credited, nextHolds, holds]
      constructor
      · rintro ⟨_, _, ⟨⟩, same, credited⟩
        rw [nextFound] at same
        cases same
        exact ⟨id, task, rfl, found, credit ▸ credited⟩
      rintro ⟨_, _, ⟨⟩, same, credited⟩
      rw [found] at same
      cases same
      exact ⟨id, after, rfl, nextFound, credit ▸ credited⟩
    · rw [unfinishedRecord_held nextHolds nextFound, unfinishedRecord_held holds found, record]
  have same : ∀ other, host.wire channel = some other → next.tasks other = host.tasks other := by
    intro other holder
    rw [tasks, update_of_ne]
    rintro rfl
    exact holds holder
  exact ⟨credited_congr (by rw [wire]) same, unfinishedRecord_congr (by rw [wire]) same⟩

theorem Stream.wrote (locks : Locks host) (stream : Stream host frames) {count : Nat}
    (found : host.tasks id = some ⟨work, .writing off granted written⟩) (up : host.broken = false) :
    Stream { host.setTask id ⟨work, .writing off granted (written + count)⟩ with
      socket := host.socket ++ window (encodeFrame (work.frame off granted)) written count } frames := by
  have holds := locks.holds found
  have before := unfinishedFrame_held holds found
  constructor
  · exact stream.accepted
  · obtain ⟨cut, bytes, _, rest⟩ := stream.socket
    refine ⟨(encodeFrame (work.frame off granted)).take (written + count), ?_, ⟨_, take_prefix _ _⟩, fun _ => ?_⟩
    · rw [bytes, rest up, before, Task.unfinishedFrame, append_assoc, take_append_window]
    · simp [Host.unfinishedFrame, Host.setTask, holds, Task.unfinishedFrame]
  intro channel
  obtain ⟨records, cut, data, shape, rest⟩ := stream.channel channel
  refine ⟨records, cut, data, shape, fun _ live => ?_⟩
  have moved : Task.unfinishedRecord ⟨work, .writing off granted (written + count)⟩ =
      Task.unfinishedRecord ⟨work, .writing off granted written⟩ := by
    cases work <;> rfl
  obtain ⟨credited, unfinished⟩ := channels_kept
    { host.setTask id ⟨work, .writing off granted (written + count)⟩ with
      socket := host.socket ++ window (encodeFrame (work.frame off granted)) written count }
    found rfl rfl (.inl ⟨moved, rfl⟩) channel
  rw [unfinished]
  rw [credited] at live
  exact rest up live

theorem dataOn_append (channel : UInt32) (frames : List Frame) (frame : Frame) : dataOn channel (frames ++ [frame]) =
      dataOn channel frames ++ if frame.kind = .data ∧ frame.channel = channel then frame.payload else [] := by
  by_cases mine : frame.kind = .data ∧ frame.channel = channel <;> simp [dataOn, mine]

theorem Stream.socket_finished (locks : Locks host) (stream : Stream host frames) {work : Work}
    {off granted written : Nat} (found : host.tasks id = some ⟨work, .writing off granted written⟩)
    (up : host.broken = false) (whole : written = (encodeFrame (work.frame off granted)).length) :
    host.socket = (frames ++ [work.frame off granted]).flatMap encodeFrame := by
  have holds := locks.holds found
  obtain ⟨cut, bytes, _, rest⟩ := stream.socket
  have cutWhole : cut = encodeFrame (work.frame off granted) := by
    rw [rest up, unfinishedFrame_held holds found, Task.unfinishedFrame, whole, take_length]
  rw [bytes, cutWhole, flatMap_append]
  simp

theorem Stream.accepted_finished (stream : Stream host frames) {frame : Frame}
    (fits : frame.payload.length ≤ maxPayload) : ∀ other ∈ frames ++ [frame], other.payload.length ≤ maxPayload := by
  intro other member
  rcases mem_append.mp member with early | last
  · exact stream.accepted other early
  · rw [mem_singleton.mp last]
    exact fits

def Host.frameSent (host : Host) (id : Nat) (channel : UInt32) (record : Record) (off : Nat) : Host :=
  { host.setTask id ⟨.record channel record, .crediting off⟩ with writer := none }

variable (locks : Locks host) (stream : Stream host frames)
include locks stream

theorem Stream.frameSent
    (found : host.tasks id = some ⟨.record channel record, .writing off granted written⟩) (up : host.broken = false)
    (whole : written = (encodeFrame ((Work.record channel record).frame off granted)).length) :
    Stream (host.frameSent id channel record (off + granted))
      (frames ++ [(Work.record channel record).frame off granted]) := by
  have holds : host.wire channel = some id := (locks.wire channel id).mpr ⟨record, _, found, by simp⟩
  have nextFound : (host.frameSent id channel record (off + granted)).tasks id =
      some ⟨.record channel record, .crediting (off + granted)⟩ := update_self ..
  constructor
  · refine stream.accepted_finished ?_
    have fits : granted ≤ maxPayload := locks.fits id _ found
    rw [Work.frame, window, length_take]
    omega
  · refine ⟨[], ?_, ⟨⟨.ctrl, 0, []⟩, nil_prefix⟩, fun _ => (unfinishedFrame_free rfl).symm⟩
    rw [append_nil]
    exact stream.socket_finished locks found up whole
  intro other
  obtain ⟨records, cut, data, shape, rest⟩ := stream.channel other
  rw [dataOn_append]
  by_cases same : other = channel
  · subst same
    have credited : host.credited other := ⟨id, _, holds, found, rfl⟩
    have sent := rest up (.inr credited)
    rw [unfinishedRecord_held holds found, Task.unfinishedRecord] at sent
    refine ⟨records, (encodeRecord record).take (off + granted), ?_, ⟨record, take_prefix _ _⟩, fun _ _ => ?_⟩
    · rw [if_pos ⟨rfl, rfl⟩, data, sent, append_assoc, Work.frame, take_append_window]
    · have nextHolds : (host.frameSent id other record (off + granted)).wire other = some id := holds
      exact (unfinishedRecord_held nextHolds nextFound).symm
  have foreign : ¬ (((Work.record channel record).frame off granted).kind = .data ∧
      ((Work.record channel record).frame off granted).channel = other) := fun mine => same mine.2.symm
  obtain ⟨credited, unfinished⟩ := other_channel (host.frameSent id channel record (off + granted)) locks
    found (fun other apart => update_of_ne apart _ _) (fun _ _ => rfl) same
  refine ⟨records, cut, ?_, shape, fun _ live => ?_⟩
  · rw [if_neg foreign, append_nil, data]
  rw [unfinished]
  rw [credited] at live
  exact rest up live

theorem Stream.messageSent (found : host.tasks id = some ⟨.control payload, .writing off granted written⟩)
    (up : host.broken = false) (whole : written = (encodeFrame ((Work.control payload).frame off granted)).length) :
    Stream (host.dropTask id) (frames ++ [(Work.control payload).frame off granted]) := by
  have holds := locks.holds found
  have freed : (host.dropTask id).writer = none := by simp [Host.dropTask, holds]
  constructor
  · exact stream.accepted_finished (locks.fits id _ found)
  · refine ⟨[], ?_, ⟨⟨.ctrl, 0, []⟩, nil_prefix⟩, fun _ => (unfinishedFrame_free freed).symm⟩
    rw [append_nil]
    exact stream.socket_finished locks found up whole
  intro channel
  obtain ⟨records, cut, data, shape, rest⟩ := stream.channel channel
  obtain ⟨credited, unfinished⟩ := dropTask_channel (locks.wire_control found channel)
  refine ⟨records, cut, ?_, shape, fun _ live => ?_⟩
  · rw [dataOn_append, if_neg (by simp [Work.frame]), append_nil, data]
  rw [unfinished]
  rw [credited] at live
  exact rest up live

theorem Stream.droppedMessage {phase : Phase} (found : host.tasks id = some ⟨.control payload, phase⟩)
    (frame : (host.dropTask id).unfinishedFrame = host.unfinishedFrame) : Stream (host.dropTask id) frames := by
  refine stream.quiet rfl (fun up => up) (fun _ => frame) ?_
  intro channel _ live
  obtain ⟨credited, unfinished⟩ := dropTask_channel (locks.wire_control found channel)
  rw [credited] at live
  exact ⟨live, unfinished⟩

end

/-! ## One step -/

section

variable {host next : Host}

def Kept (host : Host) : Prop := Locks host ∧ ∃ frames, Stream host frames

theorem Stream.ofBroken {frames : List Frame} (stream : Stream host frames) (socket : next.socket = host.socket)
    (broken : next.broken = true) : Stream next frames := by
  have down : ¬ next.broken = false := by simp [broken]
  exact stream.quiet socket (fun up => absurd up down) (fun up => absurd up down) (fun _ up => absurd up down)

variable {id : Nat} {channel : UInt32} {record : Record}

theorem Locks.frameSent (locks : Locks host)
    (found : host.tasks id = some ⟨.record channel record, .writing off granted written⟩) (sent : Nat) :
    Locks (host.frameSent id channel record sent) := by
  have holds := locks.holds found
  refine locks.setTask rfl ?_ (fun _ _ _ => Iff.rfl) (by simp [Host.frameSent, Phase.isWriting]) ?_ trivial
  · intro other apart
    simp [Host.frameSent, holds, Ne.symm apart]
  intro other
  show host.wire other = some id ↔ _
  rw [locks.wire, found]
  constructor
  all_goals
    rintro ⟨_, _, ⟨⟩, _⟩
    exact ⟨record, _, rfl, by simp⟩

theorem dropTask_frameSent (holds : host.writer = some id) :
    (host.frameSent id channel record off).dropTask id = host.dropTask id := by
  simp [Host.dropTask, Host.frameSent, Host.setTask, holds]

theorem Kept.cancelled (kept : Kept host) {task : Task} (found : host.tasks id = some task)
    (clean : host.clean task = true) : Kept (host.dropTask id) := by
  obtain ⟨locks, frames, stream⟩ := kept
  refine ⟨locks.dropTask id, ?_⟩
  by_cases down : host.broken = true
  · exact ⟨frames, stream.ofBroken rfl down⟩
  have up : host.broken = false := by simpa using down
  have idle : task.phase.isWriting = false → (host.dropTask id).unfinishedFrame = host.unfinishedFrame := by
    intro still
    have unheld := locks.writer_ne found still
    refine unfinishedFrame_congr (dropTask_writer_other unheld) fun other holder => dropTask_tasks ?_
    rintro rfl
    exact unheld holder
  have unwritten : ∀ work off granted, task = ⟨work, .writing off granted 0⟩ →
      (host.dropTask id).unfinishedFrame = host.unfinishedFrame := by
    rintro work off granted rfl
    have holds := locks.holds found
    have freed : (host.dropTask id).writer = none := by simp [Host.dropTask, holds]
    rw [unfinishedFrame_free freed, unfinishedFrame_held holds found]
    rfl
  obtain ⟨work, phase⟩ := task
  cases work with
  | control payload =>
    cases phase with
    | waiting | crediting off | queued off granted => exact ⟨frames, stream.droppedMessage locks found (idle rfl)⟩
    | writing off granted written =>
      simp only [Host.clean, up, Bool.false_or, Bool.or_eq_true, decide_eq_true_iff] at clean
      rcases clean with rfl | whole
      · exact ⟨frames, stream.droppedMessage locks found (unwritten _ _ _ rfl)⟩
      · exact ⟨_, stream.messageSent locks found up whole⟩
  | record channel record =>
    cases phase with
    | waiting => exact ⟨frames, stream.dropped locks found (fun _ => idle rfl) (.inr rfl)⟩
    | crediting off =>
      simp only [Host.clean, up, Bool.false_or, Bool.or_eq_true, decide_eq_true_iff] at clean
      rcases clean with (closed | rfl) | whole
      · exact ⟨frames, stream.dropped locks found (fun _ => idle rfl) (.inl closed)⟩
      · exact ⟨frames, stream.dropped locks found (fun _ => idle rfl) (.inr rfl)⟩
      · exact ⟨frames, stream.completed locks found whole⟩
    | queued off granted =>
      simp only [Host.clean, up, Bool.false_or, Bool.or_eq_true, decide_eq_true_iff] at clean
      rcases clean with closed | rfl
      · exact ⟨frames, stream.dropped locks found (fun _ => idle rfl) (.inl closed)⟩
      · exact ⟨frames, stream.dropped locks found (fun _ => idle rfl) (.inr rfl)⟩
    | writing off granted written =>
      simp only [Host.clean, up, Bool.false_or, Bool.or_eq_true, Bool.and_eq_true, decide_eq_true_iff] at clean
      rcases clean with ⟨rfl, closed | rfl⟩ | ⟨whole, rest⟩
      · exact ⟨frames, stream.dropped locks found (fun _ => unwritten _ _ _ rfl) (.inl closed)⟩
      · exact ⟨frames, stream.dropped locks found (fun _ => unwritten _ _ _ rfl) (.inr rfl)⟩
      -- the frame is whole: its sender is dropped as it would be right after it
      have holds := locks.holds found
      have sent := stream.frameSent locks found up whole
      have sentLocks := locks.frameSent found (off + granted)
      have sentFound : (host.frameSent id channel record (off + granted)).tasks id =
          some ⟨.record channel record, .crediting (off + granted)⟩ := update_self ..
      have sentIdle : ((host.frameSent id channel record (off + granted)).dropTask id).unfinishedFrame =
          (host.frameSent id channel record (off + granted)).unfinishedFrame := by
        rw [unfinishedFrame_free rfl, unfinishedFrame_free rfl]
      rw [← dropTask_frameSent holds]
      rcases rest with closed | complete
      · exact ⟨_, sent.dropped sentLocks sentFound (fun _ => sentIdle) (.inl closed)⟩
      · exact ⟨_, sent.completed sentLocks sentFound complete⟩

theorem Kept.started (kept : Kept host) (fresh : host.tasks id = none)
    (fits : Task.Fits ⟨work, .waiting⟩) : Kept (host.setTask id ⟨work, .waiting⟩) := by
  obtain ⟨locks, frames, stream⟩ := kept
  have free := locks.free fresh
  refine ⟨?_, frames, stream.started locks fresh work⟩
  refine locks.setTask rfl (fun _ _ => Iff.rfl) (fun _ _ _ => Iff.rfl) (by simpa [Host.setTask, Phase.isWriting] using free.1)
    ?_ fits
  intro channel
  constructor
  · intro holds
    exact absurd holds (free.2 channel)
  · rintro ⟨_, _, ⟨⟩, moved⟩
    exact absurd rfl moved

theorem Kept.lockedWire (kept : Kept host)
    (found : host.tasks id = some ⟨.record channel record, .waiting⟩) (free : host.wire channel = none) :
    Kept { host.setTask id ⟨.record channel record, .crediting 0⟩ with
      wire := update host.wire channel (some id) } := by
  obtain ⟨locks, frames, stream⟩ := kept
  have unheld := locks.writer_ne found rfl
  have foreign : ∀ other, host.wire other ≠ some id := by
    intro other holds
    obtain ⟨_, _, same, moved⟩ := (locks.wire other id).mp holds
    rw [found] at same
    cases same
    exact moved rfl
  constructor
  · refine locks.setTask rfl (fun _ _ => Iff.rfl) ?_ (by simpa [Host.setTask, Phase.isWriting] using unheld) ?_ trivial
    · intro other holder apart
      by_cases same : other = channel
      · subst same
        simp [free, Ne.symm apart]
      · simp [update_of_ne same]
    intro other
    by_cases same : other = channel
    · subst same
      simp
    · simp [update_of_ne same, foreign other, Ne.symm same]
  refine ⟨frames, stream.moved locks found (fun other apart => update_of_ne apart _ _)
    (fun other apart => update_of_ne apart _ _) rfl rfl rfl (fun _ => ?_) (fun _ live => ?_)⟩
  · refine unfinishedFrame_congr rfl fun other holder => update_of_ne ?_ _ _
    rintro rfl
    exact unheld holder
  rcases live with isOpen | ⟨other, task, holder, same, credited⟩
  · refine ⟨.inl isOpen, ?_⟩
    rw [unfinishedRecord_free free]
    simp [Host.unfinishedRecord, Host.setTask, Task.unfinishedRecord]
  simp only [update_self, Option.some.injEq] at holder
  subst holder
  simp only [Host.setTask, update_self, Option.some.injEq] at same
  subst same
  cases credited

theorem Locks.kept {phase : Phase} (locks : Locks host)
    (found : host.tasks id = some ⟨.record channel record, phase⟩) (after : Phase) (moved : phase ≠ .waiting) (still : after ≠ .waiting)
    (writing : after.isWriting = phase.isWriting) (fits : Task.Fits ⟨.record channel record, after⟩)
    (tasks : next.tasks = update host.tasks id (some ⟨.record channel record, after⟩))
    (writer : next.writer = host.writer) (wire : next.wire = host.wire) : Locks next := by
  refine locks.setTask tasks (fun _ _ => by rw [writer]) (fun _ _ _ => by rw [wire]) ?_ ?_ fits
  · rw [writer, locks.writer, found]
    simp [writing]
  intro other
  rw [wire, locks.wire, found]
  constructor
  · rintro ⟨_, _, ⟨⟩, _⟩
    exact ⟨record, after, rfl, still⟩
  · rintro ⟨_, _, ⟨⟩, _⟩
    exact ⟨record, phase, rfl, moved⟩

theorem Kept.tookCredit (kept : Kept host)
    {avail : UInt32 → Nat} (found : host.tasks id = some ⟨.record channel record, .crediting off⟩)
    (isOpen : host.closed channel = false) (fits : granted ≤ maxPayload) :
    Kept { host.setTask id ⟨.record channel record, .queued off granted⟩ with avail := avail } := by
  obtain ⟨locks, frames, stream⟩ := kept
  have unheld := locks.writer_ne found rfl
  have holds : host.wire channel = some id := (locks.wire channel id).mpr ⟨record, _, found, by simp⟩
  refine ⟨locks.kept found (.queued off granted) (by simp) (by simp) rfl fits rfl rfl rfl, frames, ?_⟩
  refine stream.moved locks found (fun other apart => update_of_ne apart _ _) (fun _ _ => rfl) rfl rfl rfl
    (fun _ => ?_) (fun _ _ => ⟨.inl isOpen, ?_⟩)
  · refine unfinishedFrame_congr rfl fun other holder => update_of_ne ?_ _ _
    rintro rfl
    exact unheld holder
  · rw [unfinishedRecord_held holds found]
    simp [Host.unfinishedRecord, Host.setTask, holds, Task.unfinishedRecord]

theorem Kept.lockedWriter (kept : Kept host) {task after : Task} (found : host.tasks id = some task)
    (free : host.writer = none) (writing : after.phase.isWriting = true) (empty : after.unfinishedFrame = [])
    (fits : after.Fits) (wire : ∀ channel, host.wire channel = some id ↔
      ∃ record phase, after = ⟨.record channel record, phase⟩ ∧ phase ≠ .waiting)
    (same : (after.unfinishedRecord = task.unfinishedRecord ∧ after.phase.credited = task.phase.credited) ∨
      ∀ channel, host.wire channel ≠ some id) :
    Kept { host.setTask id after with writer := some id } := by
  obtain ⟨locks, frames, stream⟩ := kept
  constructor
  · refine locks.setTask rfl ?_ (fun _ _ _ => Iff.rfl) (by simpa using writing) wire fits
    intro other apart
    simp [free, Ne.symm apart]
  refine ⟨frames, stream.quiet rfl (fun up => up) (fun _ => ?_) (fun channel _ live => ?_)⟩
  · rw [unfinishedFrame_free free]
    simp [Host.unfinishedFrame, Host.setTask, empty]
  obtain ⟨credited, unfinished⟩ :=
    channels_kept { host.setTask id after with writer := some id } found rfl rfl same channel
  rw [credited] at live
  exact ⟨live, unfinished⟩

theorem Kept.wrote (kept : Kept host) (count : Nat)
    (found : host.tasks id = some ⟨work, .writing off granted written⟩) (up : host.broken = false) :
    Kept { host.setTask id ⟨work, .writing off granted (written + count)⟩ with
      socket := host.socket ++ window (encodeFrame (work.frame off granted)) written count } := by
  obtain ⟨locks, frames, stream⟩ := kept
  have holds := locks.holds found
  have fits := locks.fits id _ found
  refine ⟨?_, frames, stream.wrote locks found up⟩
  cases work with
  | record channel record => exact locks.kept found (.writing off granted (written + count)) (by simp) (by simp) rfl fits rfl rfl rfl
  | control payload =>
    refine locks.setTask rfl (fun _ _ => Iff.rfl) (fun _ _ _ => Iff.rfl) (by simp [Host.setTask, holds, Phase.isWriting])
      ?_ fits
    intro channel
    constructor
    · intro holder
      exact absurd holder (locks.wire_control found channel)
    · rintro ⟨_, _, ⟨⟩, _⟩

theorem Kept.environment (kept : Kept host) (socket : next.socket = host.socket)
    (broken : next.broken = false → host.broken = false) (tasks : next.tasks = host.tasks)
    (writer : next.writer = host.writer) (wire : next.wire = host.wire)
    (closed : ∀ channel, next.closed channel = false → host.closed channel = false) : Kept next := by
  obtain ⟨locks, frames, stream⟩ := kept
  refine ⟨⟨?_, ?_, ?_⟩, frames, stream.environment socket broken tasks writer wire closed⟩
  · rw [writer, tasks]
    exact locks.writer
  · rw [wire, tasks]
    exact locks.wire
  · rw [tasks]
    exact locks.fits

theorem Kept.step (kept : Kept host) {event : Event} (permitted : host.permits event = true)
    (stepped : host.step event = some next) : Kept next := by
  cases event
  all_goals simp only [Host.step] at stepped
  case call id channel record =>
    split at stepped <;> cases stepped
    rename_i accepted
    exact kept.started accepted.1 trivial
  case message id payload =>
    split at stepped <;> cases stepped
    rename_i accepted
    exact kept.started accepted.1 accepted.2
  case lockWire id =>
    split at stepped
    · rename_i found
      split at stepped <;> cases stepped
      rename_i free
      exact kept.lockedWire found free
    · cases stepped
  case takeCredit id =>
    split at stepped
    · rename_i found
      split at stepped <;> cases stepped
      rename_i more
      exact kept.tookCredit found more.2.1 (Nat.min_le_right ..)
    · cases stepped
  case refuseCredit id =>
    split at stepped
    · rename_i found
      split at stepped <;> cases stepped
      rename_i refused
      exact kept.cancelled found (by simp [Host.clean, refused.2])
    · cases stepped
  case lockWriter id =>
    have locks := kept.1
    split at stepped
    · rename_i channel record off granted found
      split at stepped <;> cases stepped
      rename_i free
      have fits := locks.fits id _ found
      refine kept.lockedWriter found free rfl rfl fits ?_ (.inl ⟨rfl, rfl⟩)
      intro other
      rw [locks.wire, found]
      constructor
      all_goals
        rintro ⟨_, _, ⟨⟩, _⟩
        exact ⟨record, _, rfl, by simp⟩
    · rename_i payload found
      split at stepped <;> cases stepped
      rename_i free
      have fits := locks.fits id _ found
      refine kept.lockedWriter found free rfl rfl fits ?_ (.inr (locks.wire_control found))
      intro channel
      constructor
      · intro holder
        exact absurd holder (locks.wire_control found channel)
      · rintro ⟨_, _, ⟨⟩, _⟩
    · cases stepped
  case write id count =>
    split at stepped
    · rename_i found
      split at stepped <;> cases stepped
      rename_i room
      exact kept.wrote count found room.1
    · cases stepped
  case finishFrame id =>
    split at stepped
    · rename_i found
      split at stepped <;> cases stepped
      rename_i whole
      obtain ⟨locks, frames, stream⟩ := kept
      refine ⟨locks.frameSent found _, ?_⟩
      by_cases up : host.broken = false
      · exact ⟨_, stream.frameSent locks found up whole⟩
      · have down : host.broken = true := by simpa using up
        exact ⟨frames, stream.ofBroken rfl down⟩
    · rename_i found
      split at stepped <;> cases stepped
      rename_i whole
      exact kept.cancelled found (by simp [Host.clean, whole])
    · cases stepped
  case failWrite id =>
    split at stepped
    · rename_i found
      split at stepped <;> cases stepped
      rename_i down
      exact kept.cancelled found (by simp [Host.clean, down])
    · cases stepped
  case complete id =>
    split at stepped
    · rename_i found
      split at stepped <;> cases stepped
      rename_i whole
      exact kept.cancelled found (by simp [Host.clean, whole])
    · cases stepped
  case cancel id =>
    cases found : host.tasks id with
    | none => simp [found] at stepped
    | some task =>
      simp only [found, reduceCtorEq, if_false, Option.some.injEq] at stepped
      subst stepped
      simp only [Host.permits, found, Option.all_some] at permitted
      exact kept.cancelled found permitted
  case grant channel bytes | failAll channel =>
    cases stepped
    exact kept.environment rfl (fun up => up) rfl rfl rfl (fun _ isOpen => isOpen)
  case close channel =>
    cases stepped
    refine kept.environment rfl (fun up => up) rfl rfl rfl ?_
    intro other isOpen
    by_cases same : other = channel
    · subst same
      simp at isOpen
    · simpa [update_of_ne same] using isOpen
  case breakSocket =>
    cases stepped
    exact kept.environment rfl (by simp) rfl rfl rfl (fun _ isOpen => isOpen)

theorem Kept.run (kept : Kept host) {events : List Event} (ran : host.cleanRun events = some next) : Kept next := by
  induction events generalizing host with
  | nil =>
    cases ran
    exact kept
  | cons event events ih =>
    simp only [Host.cleanRun, foldlM_cons, Option.bind_eq_bind, Option.bind_eq_some_iff] at ran
    obtain ⟨middle, first, rest⟩ := ran
    split at first
    · rename_i permitted
      exact ih (kept.step permitted first) rest
    · cases first

end

/-- In every run whose cancellations all find their task clean, the socket carries whole frames and every channel
whole records. -/
theorem hostCalls_intact {events : List Event} {host : Host}
    (ran : Host.connected.cleanRun events = some host) : host.Intact := by
  have start : Kept Host.connected := ⟨connected_locks, [], connected_stream⟩
  obtain ⟨_, _, stream⟩ := start.run ran
  exact stream.intact

/-- Two calls on one channel; the second is cancelled while it waits for the first, and a control message goes out
between two writes. -/
def cleanCancellation : List Event :=
  [.call 0 1 ⟨[0x7b], [1, 2]⟩, .call 1 1 ⟨[0x7b], []⟩, .message 2 [], .lockWire 0, .takeCredit 0, .lockWriter 0,
    .write 0 5, .cancel 1, .write 0 19, .finishFrame 0, .lockWriter 2, .complete 0, .write 2 13, .finishFrame 2]

theorem hostCalls_intact_cleanCancellation :
    ∃ host, Host.connected.cleanRun cleanCancellation = some host ∧ host.Intact := by
  obtain ⟨host, ran⟩ := Option.isSome_iff_exists.mp
    (show (Host.connected.cleanRun cleanCancellation).isSome = true by decide +kernel)
  exact ⟨host, ran, hostCalls_intact ran⟩

theorem framesOf_flatMap {frames : List Frame} (accepted : ∀ frame ∈ frames, frame.payload.length ≤ maxPayload) :
    framesOf (frames.flatMap encodeFrame) = frames := by
  induction frames with
  | nil => rfl
  | cons frame frames ih =>
    rw [flatMap_cons, framesOf_encodeFrame_append (accepted frame mem_cons_self),
      ih fun other member => accepted other (mem_cons_of_mem _ member)]

theorem Host.Intact.decodes {host : Host} (intact : host.Intact) (up : host.broken = false)
    (free : host.writer = none) : (framesOf host.socket).flatMap encodeFrame = host.socket := by
  obtain ⟨frames, accepted, ⟨cut, bytes, _, rest⟩, _⟩ := intact
  rw [rest up, unfinishedFrame_free free, append_nil] at bytes
  rw [bytes, framesOf_flatMap accepted]

/-- A write call of a push is aborted when the header of its frame is on the socket, and the push closes the file. -/
def abortedPush : List Event :=
  [.call 0 1 ⟨[0x7b], [1, 2]⟩, .lockWire 0, .takeCredit 0, .lockWriter 0, .write 0 13, .cancel 0,
    .call 1 1 ⟨[0x7d], []⟩, .lockWire 1, .takeCredit 1, .lockWriter 1, .write 1 22, .finishFrame 1, .complete 1]

/-- The frame of the close call is swallowed by the header that the aborted call left behind. -/
theorem abortedPush_corrupts_channel : ∃ host, Host.connected.run abortedPush = some host ∧ ¬ host.Intact ∧
      framesOf host.socket = [⟨.data, 1, (encodeFrame ⟨.data, 1, encodeRecord ⟨[0x7d], []⟩⟩).take 11⟩] := by
  have summary : (Host.connected.run abortedPush).map (fun host => (host.broken, host.writer, host.socket)) =
      some (false, none, (encodeFrame ⟨.data, 1, encodeRecord ⟨[0x7b], [1, 2]⟩⟩).take 13 ++
        encodeFrame ⟨.data, 1, encodeRecord ⟨[0x7d], []⟩⟩) := by decide +kernel
  obtain ⟨host, ran, same⟩ := Option.map_eq_some_iff.mp summary
  obtain ⟨up, free, socket⟩ : host.broken = false ∧ host.writer = none ∧ host.socket = _ := by
    simpa only [Prod.mk.injEq] using same
  have decoded : framesOf host.socket =
      [⟨.data, 1, (encodeFrame ⟨.data, 1, encodeRecord ⟨[0x7d], []⟩⟩).take 11⟩] := by
    rw [socket]
    decide +kernel
  refine ⟨host, ran, fun intact => ?_, decoded⟩
  have whole := intact.decodes up free
  rw [decoded, socket] at whole
  exact absurd whole (by decide +kernel)

end Vmlab.Agent
