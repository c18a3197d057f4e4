import Mathlib

/-!
# The virtio console's worker

The way of host bytes to the guest through one port (`virtio/console.rs`). The worker's loop is taken apart into the
steps between which clients and the guest can act. The other direction shares only the socket and the locks with this
one and is left out.
-/

namespace Vmlab.Virtio

variable {α : Type}

/-- A connected client as the worker's side sees it: what is unread, and whether the peer has closed. -/
structure Socket (α : Type) where
  unread : List α
  closed : Bool

structure Revents where
  wake : Bool
  accept : Bool
  readable : Bool
  hangup : Bool

def Revents.any (revents : Revents) : Bool := revents.wake || revents.accept || revents.readable || revents.hangup

inductive Phase where
  | top
  | polling (interest : Bool)
  | commands (revents : Revents)
  | accepting (revents : Revents)
  | reading (revents : Revents)
  | hangup (revents : Revents)

inductive Kick where
  | receive
  | control
  deriving DecidableEq

structure Console (α : Type) where
  phase : Phase
  active : Bool
  snapshotPaused : Bool
  client : Option (Socket α)
  hostOpen : Bool
  backlog : List (Socket α)
  guestOpen : Bool
  rxStage : List α
  chains : List Nat
  control : List Bool
  kicks : List Kick
  woken : Bool
  delivered : List α
  accepted : List (List α)

def readChunk : Nat := 64 * 1024

namespace Console

def new : Console α := ⟨.top, false, false, none, false, [], false, [], [], [], [], false, [], []⟩

def rxHasCapacity (console : Console α) : Bool :=
  if console.snapshotPaused || !console.guestOpen then false else console.active && !console.chains.isEmpty

def drainLoop : List Nat → List α → List α × List Nat × List α
  | [], stage => (stage, [], [])
  | room :: chains, stage =>
    if stage.isEmpty then (stage, room :: chains, [])
    else
      let (left, free, written) := drainLoop chains (stage.drop room)
      (left, free, stage.take room ++ written)

section

variable (console : Console α)

def drainRxStage : Console α :=
  if console.snapshotPaused || !console.guestOpen || !console.active then console
  else
    let (stage, chains, written) := drainLoop console.chains console.rxStage
    { console with rxStage := stage, chains := chains, delivered := console.delivered ++ written }

def dispatchOpen (value : Bool) : Console α :=
  let console := { console with guestOpen := value }
  if value then console.drainRxStage else console

def processCtrlTx : Console α :=
  if console.snapshotPaused || !console.active then console
  else console.control.foldl dispatchOpen { console with control := [] }

def handleKick : Kick → Console α
  | .receive => console.drainRxStage
  | .control => console.processCtrlTx

def handleKicks : Console α :=
  console.kicks.foldl handleKick { console with woken := false, kicks := [] }

def disconnect : Console α := { console with client := none, hostOpen := false }

def accept : Console α :=
  match console.client, console.backlog with
  | none, socket :: backlog =>
    { console with
      client := some socket
      hostOpen := true
      backlog := backlog
      accepted := console.accepted ++ [socket.unread] }
  | _, _ => console

def read : Console α :=
  match console.client with
  | none => console
  | some socket =>
    if socket.unread.isEmpty then
      -- End of file, or nothing there after all.
      if socket.closed then console.disconnect else console
    else
      drainRxStage { console with
        client := some { socket with unread := socket.unread.drop readChunk }
        rxStage := console.rxStage ++ socket.unread.take readChunk }

end

def revents (console : Console α) (interest : Bool) : Revents where
  wake := console.woken
  accept := !console.backlog.isEmpty
  readable := console.client.any fun socket => interest && (!socket.unread.isEmpty || socket.closed)
  hangup := console.client.any fun socket => socket.closed


/-- The worker's next step; `none` while it waits in `poll`. -/
def work (console : Console α) : Option (Console α) :=
  match console.phase with
  | .top =>
    some { console with
      hostOpen := console.client.isSome
      phase := .polling (console.client.isSome && console.rxHasCapacity) }
  | .polling interest =>
    if (console.revents interest).any then some { console with phase := .commands (console.revents interest) } else none
  | .commands revents =>
    some { (if revents.wake then console.handleKicks else console) with phase := .accepting revents }
  | .accepting revents =>
    some { (if revents.accept then console.accept else console) with phase := .reading revents }
  | .reading revents =>
    some { (if revents.readable then console.read else console) with phase := .hangup revents }
  | .hangup revents =>
    some { (if revents.hangup then console.disconnect else console) with phase := .top }

/-! ### Clients and the guest -/

inductive Event (α : Type) where
  | worker
  | connect
  | write (client : Option Nat) (bytes : List α)
  | close (client : Option Nat)
  | activate
  | openPort (value : Bool)
  | refill (chains : List Nat)
  | quiesce
  | resumeSnapshot

def notify (console : Console α) (kick : Kick) : Console α :=
  { console with kicks := console.kicks ++ [kick], woken := true }

def appendTo (bytes : List α) (socket : Socket α) : Socket α := { socket with unread := socket.unread ++ bytes }

def closeSocket (socket : Socket α) : Socket α := { socket with closed := true }

section

variable (console : Console α)

def change (client : Option Nat) (edit : Socket α → Socket α) : Option (Console α) :=
  match client with
  | none =>
    match console.client with
    | some socket => if socket.closed then none else some { console with client := some (edit socket) }
    | none => none
  | some place =>
    match console.backlog[place]? with
    | some socket =>
      if socket.closed then none else some { console with backlog := console.backlog.set place (edit socket) }
    | none => none

def account (client : Option Nat) (bytes : List α) : Console α :=
  match client with
  | none => { console with accepted := console.accepted.modify (console.accepted.length - 1) (· ++ bytes) }
  | some _ => console

def step : Event α → Option (Console α)
  | .worker => console.work
  | .connect => some { console with backlog := console.backlog ++ [⟨[], false⟩] }
  | .write client bytes => (console.change client (appendTo bytes)).map fun after => after.account client bytes
  | .close client => console.change client closeSocket
  | .activate => if console.active then none else some { console with active := true, woken := true }
  | .openPort value =>
    if console.active then some ({ console with control := console.control ++ [value] }.notify .control) else none
  | .refill chains =>
    if console.active then some ({ console with chains := console.chains ++ chains }.notify .receive) else none
  | .quiesce => some { console with snapshotPaused := true }
  | .resumeSnapshot => some (({ console with snapshotPaused := false }.notify .control).notify .receive)

end

def run (console : Console α) : List (Event α) → Option (Console α)
  | [] => some console
  | event :: later => (console.step event).bind fun after => after.run later

end Console

end Vmlab.Virtio

/-! ### Every byte is delivered, staged or unread -/

namespace Vmlab.Virtio.Console

open List

variable {α : Type}

/-! ### Draining -/

theorem drainLoop_spec (chains : List Nat) (stage : List α) :
    (drainLoop chains stage).2.2 ++ (drainLoop chains stage).1 = stage ∧
      ((drainLoop chains stage).1 = [] ∨ (drainLoop chains stage).2.1 = []) ∧
      (chains = [] → (drainLoop chains stage).2.1 = []) := by
  induction chains generalizing stage with
  | nil => exact ⟨rfl, .inr rfl, fun _ => rfl⟩
  | cons room chains ih =>
    unfold drainLoop
    by_cases empty : stage.isEmpty = true
    · rw [if_pos empty]
      exact ⟨rfl, .inl (List.isEmpty_iff.mp empty), fun impossible => by cases impossible⟩
    rw [if_neg empty]
    obtain ⟨bytes, ended, -⟩ := ih (stage.drop room)
    refine ⟨?_, ended, fun impossible => by cases impossible⟩
    show stage.take room ++ (drainLoop chains (stage.drop room)).2.2 ++ _ = stage
    rw [append_assoc, bytes, take_append_drop]

def RxOpen (console : Console α) : Prop :=
  console.active = true ∧ console.snapshotPaused = false ∧ console.guestOpen = true

def Drained (console : Console α) : Prop := console.RxOpen → console.rxStage = [] ∨ console.chains = []

/-- Only staged bytes have moved, and the guest's side may have changed. -/
structure Moved (before after : Console α) : Prop where
  phase : after.phase = before.phase
  active : after.active = before.active
  client : after.client = before.client
  backlog : after.backlog = before.backlog
  kicks : after.kicks = before.kicks
  woken : after.woken = before.woken
  accepted : after.accepted = before.accepted
  bytes : after.delivered ++ after.rxStage = before.delivered ++ before.rxStage
  chains : before.chains = [] → after.chains = []

variable {console second first third : Console α}

namespace Moved

theorem refl (console : Console α) : Moved console console :=
  ⟨rfl, rfl, rfl, rfl, rfl, rfl, rfl, rfl, fun none => none⟩

theorem trans (left : Moved first second) (right : Moved second third) : Moved first third where
  phase := right.phase.trans left.phase
  active := right.active.trans left.active
  client := right.client.trans left.client
  backlog := right.backlog.trans left.backlog
  kicks := right.kicks.trans left.kicks
  woken := right.woken.trans left.woken
  accepted := right.accepted.trans left.accepted
  bytes := right.bytes.trans left.bytes
  chains none := right.chains (left.chains none)

end Moved

section

variable (console)
include console

theorem drainRxStage_moved : Moved console console.drainRxStage := by
  unfold drainRxStage
  split
  · exact .refl console
  obtain ⟨bytes, -, dry⟩ := drainLoop_spec console.chains console.rxStage
  refine ⟨rfl, rfl, rfl, rfl, rfl, rfl, rfl, ?_, dry⟩
  show console.delivered ++ (drainLoop console.chains console.rxStage).2.2 ++ _ = _
  rw [append_assoc, bytes]

theorem drainRxStage_drained : Drained console.drainRxStage := by
  unfold drainRxStage
  split
  · next shut =>
    intro isOpen
    obtain ⟨active, running, guest⟩ := isOpen
    simp [active, running, guest] at shut
  · intro _
    exact (drainLoop_spec console.chains console.rxStage).2.1

theorem dispatchOpen_moved (value : Bool) : Moved console (console.dispatchOpen value) := by
  have opened : Moved console { console with guestOpen := value } :=
    ⟨rfl, rfl, rfl, rfl, rfl, rfl, rfl, rfl, fun none => none⟩
  unfold dispatchOpen
  dsimp only
  split
  · exact opened.trans (drainRxStage_moved _)
  · exact opened

theorem dispatchOpen_drained (value : Bool) : Drained (console.dispatchOpen value) := by
  unfold dispatchOpen
  dsimp only
  cases value with
  | true => exact drainRxStage_drained _
  | false =>
    intro isOpen
    exact absurd isOpen.2.2 Bool.false_ne_true

end

theorem dispatchAll_moved (values : List Bool) (console : Console α) :
    Moved console (values.foldl dispatchOpen console) := by
  induction values generalizing console with
  | nil => exact .refl console
  | cons value values ih => exact (dispatchOpen_moved console value).trans (ih _)

theorem dispatchAll_drained (values : List Bool) (drained : Drained console) :
    Drained (values.foldl dispatchOpen console) := by
  induction values generalizing console with
  | nil => exact drained
  | cons value values ih => exact ih (dispatchOpen_drained console value)

theorem handleKick_moved (console : Console α) (kick : Kick) : Moved console (console.handleKick kick) := by
  cases kick with
  | receive => exact drainRxStage_moved console
  | control =>
    show Moved console console.processCtrlTx
    unfold processCtrlTx
    split
    · exact .refl console
    have read : Moved console { console with control := [] } :=
      ⟨rfl, rfl, rfl, rfl, rfl, rfl, rfl, rfl, fun none => none⟩
    exact read.trans (dispatchAll_moved _ _)

theorem handleKick_drained (kick : Kick) (drained : Drained console ∨ kick = .receive) :
    Drained (console.handleKick kick) := by
  cases kick with
  | receive => exact drainRxStage_drained console
  | control =>
    have known : Drained console := drained.resolve_right (by decide)
    show Drained console.processCtrlTx
    unfold processCtrlTx
    split
    · exact known
    · have read : Drained { console with control := [] } := known
      exact dispatchAll_drained _ read

theorem handleAll_moved (kicks : List Kick) (console : Console α) :
    Moved console (kicks.foldl handleKick console) := by
  induction kicks generalizing console with
  | nil => exact .refl console
  | cons kick kicks ih => exact (handleKick_moved console kick).trans (ih _)

theorem handleAll_drained (kicks : List Kick)
    (drained : Drained console ∨ .receive ∈ kicks) : Drained (kicks.foldl handleKick console) := by
  induction kicks generalizing console with
  | nil => exact drained.resolve_right not_mem_nil
  | cons kick kicks ih =>
    apply ih
    rcases drained with known | kicked
    · exact .inl (handleKick_drained kick (.inl known))
    rcases mem_cons.mp kicked with here | later
    · exact .inl (handleKick_drained kick (.inr here.symm))
    · exact .inr later

/-! ### The invariant -/

def unreadOf (client : Option (Socket α)) : List α := client.elim [] (·.unread)

/-- Where the bytes of the accepted clients are, and what is still going to move them. -/
structure Sound (console : Console α) : Prop where
  conserved : console.delivered ++ console.rxStage ++ unreadOf console.client = console.accepted.flatten
  counted : console.client.isSome = true → console.accepted ≠ []
  staged : Drained console ∨ .receive ∈ console.kicks
  woken : console.kicks ≠ [] → console.woken = true
  fresh : console.active = false → console.chains = []

namespace Sound

variable (sound : Sound console)
include sound

theorem handleKicks : Sound console.handleKicks := by
  unfold Console.handleKicks
  have quiet : Moved { console with woken := false, kicks := [] }
      (console.kicks.foldl handleKick { console with woken := false, kicks := [] }) := handleAll_moved _ _
  have drained : Drained (console.kicks.foldl handleKick { console with woken := false, kicks := [] }) :=
    handleAll_drained _ sound.staged
  refine ⟨?_, ?_, .inl drained, ?_, ?_⟩
  · rw [quiet.bytes, quiet.client, quiet.accepted]
    exact sound.conserved
  · rw [quiet.client, quiet.accepted]
    exact sound.counted
  · rw [quiet.kicks]
    intro impossible
    exact absurd rfl impossible
  · rw [quiet.active]
    exact fun idle => quiet.chains (sound.fresh idle)

theorem disconnect (read : unreadOf console.client = []) : Sound console.disconnect where
  conserved := by
    have conserved := sound.conserved
    rw [read] at conserved
    exact conserved
  counted := fun impossible => by cases impossible
  staged := sound.staged
  woken := sound.woken
  fresh := sound.fresh

theorem accept : Sound console.accept := by
  unfold Console.accept
  split
  · next socket backlog none _ =>
    refine ⟨?_, ?_, sound.staged, sound.woken, sound.fresh⟩
    · have conserved := sound.conserved
      rw [none] at conserved
      simp only [unreadOf, Option.elim_none, append_nil] at conserved
      simp [unreadOf, conserved]
    · intro _
      simp
  · exact sound

theorem read : Sound console.read := by
  unfold Console.read
  split
  · exact sound
  rename_i socket connected
  split
  · next empty =>
    split
    · refine sound.disconnect ?_
      rw [connected]
      exact List.isEmpty_iff.mp empty
    · exact sound
  have conserved := sound.conserved
  rw [connected] at conserved
  have counted := sound.counted (by rw [connected]; rfl)
  let taken : Console α := { console with
    client := some { socket with unread := socket.unread.drop readChunk }
    rxStage := console.rxStage ++ socket.unread.take readChunk }
  have moved : Moved taken taken.drainRxStage := drainRxStage_moved taken
  refine ⟨?_, ?_, .inl (drainRxStage_drained taken), ?_, ?_⟩
  · rw [moved.bytes, moved.client, moved.accepted, ← conserved]
    simp [taken, unreadOf, take_append_drop]
  · rw [moved.accepted]
    exact fun _ => counted
  · rw [moved.kicks, moved.woken]
    exact sound.woken
  · rw [moved.active]
    exact fun idle => moved.chains (sound.fresh idle)

theorem toPhase (phase : Phase) : Sound { console with phase := phase } := { sound with }

end Sound

/-! ### Runs -/

/-- The worker handles a hang-up only when it has read all that the client wrote. -/
def Fits (console : Console α) : Event α → Prop
  | .worker =>
    match console.phase with
    | .hangup revents => revents.hangup = true → unreadOf console.client = []
    | _ => True
  | _ => True

instance [DecidableEq α] (console : Console α) (event : Event α) : Decidable (Fits console event) := by
  unfold Fits
  split
  · split
    all_goals infer_instance
  · infer_instance

theorem Sound.work {after : Console α} (sound : Sound console) (fits : Fits console .worker)
    (worked : console.work = some after) : Sound after := by
  unfold Console.work at worked
  split at worked
  · cases worked
    exact { sound with }
  · split at worked
    · cases worked
      exact sound.toPhase _
    · cases worked
  · cases worked
    split
    · exact sound.handleKicks.toPhase _
    · exact sound.toPhase _
  · cases worked
    split
    · exact sound.accept.toPhase _
    · exact sound.toPhase _
  · cases worked
    split
    · exact sound.read.toPhase _
    · exact sound.toPhase _
  · next revents phase =>
    cases worked
    split
    · next hangup =>
      simp only [Fits, phase] at fits
      exact (sound.disconnect (fits hangup)).toPhase _
    · exact sound.toPhase _

theorem flatten_modify_last (writes : List (List α)) (bytes : List α) (some : writes ≠ []) :
    (writes.modify (writes.length - 1) (· ++ bytes)).flatten = writes.flatten ++ bytes := by
  induction writes with
  | nil => exact absurd rfl some
  | cons first rest ih =>
    cases rest with
    | nil => simp
    | cons second rest =>
      have later := ih (by simp)
      simp only [length_cons, Nat.add_sub_cancel] at later ⊢
      rw [modify_succ_cons, flatten_cons, later, ← append_assoc]
      rfl

section

variable {after : Console α} (sound : Sound console)
include sound

variable {client : Option Nat}

theorem Sound.change {edit : Socket α → Socket α} (keeps : ∀ socket, (edit socket).unread = socket.unread)
    (changed : console.change client edit = some after) : Sound after := by
  unfold Console.change at changed
  split at changed
  · split at changed
    · next socket connected =>
      split at changed
      · cases changed
      cases changed
      refine ⟨?_, fun _ => sound.counted (by rw [connected]; rfl), sound.staged, sound.woken, sound.fresh⟩
      have conserved := sound.conserved
      rw [connected] at conserved
      simp only [unreadOf, Option.elim_some, keeps] at conserved ⊢
      exact conserved
    · cases changed
  split at changed
  · split at changed
    · cases changed
    · cases changed
      exact { sound with }
  · cases changed

theorem Sound.write {bytes : List α}
    (changed : console.change client (appendTo bytes) = some after) : Sound (after.account client bytes) := by
  unfold Console.change at changed
  split at changed
  · split at changed
    · next socket connected =>
      split at changed
      · cases changed
      cases changed
      have counted := sound.counted (by rw [connected]; rfl)
      have conserved := sound.conserved
      rw [connected] at conserved
      refine ⟨?_, ?_, sound.staged, sound.woken, sound.fresh⟩
      · simp only [account, flatten_modify_last _ _ counted, ← conserved]
        simp [unreadOf, appendTo]
      · intro _ none
        exact counted (modify_eq_nil_iff.mp none)
    · cases changed
  split at changed
  · split at changed
    · cases changed
    · cases changed
      exact { sound with }
  · cases changed

end

theorem Sound.notify (sound : Sound console) (kick : Kick) : Sound (console.notify kick) := by
  refine ⟨sound.conserved, sound.counted, ?_, fun _ => rfl, sound.fresh⟩
  rcases sound.staged with drained | kicked
  · exact .inl drained
  · exact .inr (mem_append_left _ kicked)

theorem Sound.step {after : Console α} (sound : Sound console) {event : Event α} (fits : Fits console event)
    (stepped : console.step event = some after) : Sound after := by
  cases event with
  | worker => exact sound.work fits stepped
  | connect =>
    cases stepped
    exact { sound with }
  | write client bytes =>
    obtain ⟨middle, changed, rfl⟩ := Option.map_eq_some_iff.mp stepped
    exact sound.write changed
  | close client =>
    have keeps : ∀ socket : Socket α, (closeSocket socket).unread = socket.unread := fun _ => rfl
    exact sound.change keeps stepped
  | activate =>
    simp only [Console.step] at stepped
    split at stepped
    · cases stepped
    rename_i idle
    cases stepped
    have none := sound.fresh (Bool.eq_false_iff.mpr idle)
    refine ⟨sound.conserved, sound.counted, .inl fun _ => .inr none, fun _ => rfl, ?_⟩
    intro impossible
    cases impossible
  | openPort value =>
    simp only [Console.step] at stepped
    split at stepped
    · cases stepped
      have asked : Sound { console with control := console.control ++ [value] } := { sound with }
      exact asked.notify .control
    · cases stepped
  | refill chains =>
    simp only [Console.step] at stepped
    split at stepped
    · next active =>
      cases stepped
      refine ⟨sound.conserved, sound.counted, .inr (by simp [Console.notify]), fun _ => rfl, ?_⟩
      intro idle
      exact absurd (idle.symm.trans active) Bool.false_ne_true
    · cases stepped
  | quiesce =>
    cases stepped
    refine ⟨sound.conserved, sound.counted, .inl ?_, sound.woken, sound.fresh⟩
    intro isOpen
    exact absurd isOpen.2.1.symm Bool.false_ne_true
  | resumeSnapshot =>
    cases stepped
    exact ⟨sound.conserved, sound.counted, .inr (by simp [Console.notify]), fun _ => rfl, sound.fresh⟩

theorem sound_new : Sound (new : Console α) := by
  refine ⟨rfl, ?_, .inl fun _ => .inl rfl, ?_, fun _ => rfl⟩
  · intro impossible
    cases impossible
  · intro impossible
    exact absurd rfl impossible

def fitting [DecidableEq α] (console : Console α) : List (Event α) → Bool
  | [] => true
  | event :: later => decide (Fits console event) && (console.step event).all fun after => after.fitting later

theorem Sound.run [DecidableEq α] {after : Console α} (sound : Sound console) {events : List (Event α)}
    (fitting : console.fitting events = true) (ran : console.run events = some after) : Sound after := by
  induction events generalizing console with
  | nil =>
    cases ran
    exact sound
  | cons event later ih =>
    obtain ⟨middle, stepped, ran⟩ := Option.bind_eq_some_iff.mp ran
    simp only [Console.fitting, stepped, Option.all_some, Bool.and_eq_true, decide_eq_true_eq] at fitting
    exact ih (sound.step fitting.1 stepped) fitting.2 ran

/-! ### Coming to rest -/

section

variable (console)

def live : List (Socket α) := console.client.toList ++ console.backlog

def AllClosed : Prop := ∀ socket ∈ console.live, socket.closed = true

def toDo : Nat :=
  console.woken.toNat + console.backlog.length + (console.live.map fun socket => 1 + socket.unread.length).sum

end

structure Eased (before after : Console α) : Prop where
  toDo : after.toDo ≤ before.toDo
  closed : AllClosed before → AllClosed after

namespace Eased

theorem trans (left : Eased first second) (right : Eased second third) :
    Eased first third := ⟨Nat.le_trans right.toDo left.toDo, fun closed => right.closed (left.closed closed)⟩

theorem of_same {before after : Console α} (client : after.client = before.client)
    (backlog : after.backlog = before.backlog) (woken : after.woken = before.woken) : Eased before after := by
  have live : after.live = before.live := by simp only [Console.live, client, backlog]
  constructor
  · simp only [Console.toDo, live, backlog, woken, Nat.le_refl]
  · intro closed socket member
    exact closed socket (live ▸ member)

end Eased

section

variable (console)
include console

theorem handleKicks_moved :
    Moved { console with woken := false, kicks := [] } console.handleKicks := handleAll_moved _ _

theorem handleKicks_eased :
    Eased console console.handleKicks ∧ (console.woken = true → console.handleKicks.toDo < console.toDo) := by
  have moved := handleKicks_moved console
  have live : console.handleKicks.live = console.live := by simp only [Console.live, moved.client, moved.backlog]
  have asleep : console.handleKicks.woken = false := moved.woken
  have backlog : console.handleKicks.backlog = console.backlog := moved.backlog
  refine ⟨⟨?_, ?_⟩, ?_⟩
  · simp only [Console.toDo, live, backlog, asleep, Bool.toNat_false]
    omega
  · intro closed socket member
    exact closed socket (live ▸ member)
  intro woken
  simp only [Console.toDo, live, backlog, asleep, woken, Bool.toNat_false, Bool.toNat_true]
  omega

theorem accept_eased : Eased console console.accept ∧
      (console.client = none → console.backlog ≠ [] → console.accept.toDo < console.toDo) := by
  unfold Console.accept
  split
  · next socket backlog none waiting =>
    refine ⟨⟨?_, ?_⟩, fun _ _ => ?_⟩
    · simp [Console.toDo, Console.live, none, waiting]
    · intro closed other member
      refine closed other ?_
      simpa [Console.live, none, waiting] using member
    · simp [Console.toDo, Console.live, none, waiting]
  · next other =>
    refine ⟨.of_same rfl rfl rfl, fun none waiting => ?_⟩
    cases queue : console.backlog with
    | nil => exact absurd queue waiting
    | cons socket backlog => exact absurd queue (other socket backlog none)

theorem disconnect_eased :
    Eased console console.disconnect ∧ (console.client.isSome = true → console.disconnect.toDo < console.toDo) := by
  cases connected : console.client with
  | none =>
    refine ⟨.of_same connected.symm rfl rfl, ?_⟩
    intro impossible
    cases impossible
  | some socket =>
    have less : console.disconnect.toDo + (1 + socket.unread.length) = console.toDo := by
      simp only [Console.toDo, Console.live, Console.disconnect, connected, Option.toList_none, Option.toList_some,
        nil_append, cons_append, map_cons, sum_cons]
      omega
    refine ⟨⟨by omega, ?_⟩, fun _ => by omega⟩
    intro closed other member
    exact closed other (mem_append_right _ member)

theorem read_eased : Eased console console.read := by
  unfold Console.read
  split
  · exact .of_same rfl rfl rfl
  rename_i socket connected
  split
  · split
    · exact (disconnect_eased console).1
    · exact .of_same rfl rfl rfl
  let taken : Console α := { console with
    client := some { socket with unread := socket.unread.drop readChunk }
    rxStage := console.rxStage ++ socket.unread.take readChunk }
  have moved := drainRxStage_moved taken
  refine Eased.trans ⟨?_, ?_⟩ (Eased.of_same moved.client moved.backlog moved.woken)
  · simp [taken, Console.toDo, Console.live, connected]
  intro closed other member
  simp only [taken, Console.live, Option.toList_some, cons_append, nil_append, mem_cons] at member
  rcases member with here | later
  · rw [here]
    exact closed socket (by simp [Console.live, connected])
  · exact closed other (mem_append_right _ later)

end

theorem read_disconnect_eased (connected : console.client.isSome = true) (readable : Bool) :
    ((if readable then console.read else console).disconnect).toDo < console.toDo := by
  cases readable with
  | false => exact (disconnect_eased console).2 connected
  | true =>
    obtain ⟨socket, client⟩ := Option.isSome_iff_exists.mp connected
    have eased := read_eased console
    have last := (disconnect_eased console.read).1.toDo
    by_cases still : console.read.client.isSome = true
    · exact Nat.lt_of_lt_of_le ((disconnect_eased console.read).2 still) eased.toDo
    refine Nat.lt_of_le_of_lt last ?_
    have gone : console.read = console.disconnect := by
      unfold Console.read at still ⊢
      rw [client] at still ⊢
      dsimp only at still ⊢
      split at still
      · split at still
        · next empty closed => rw [if_pos empty, if_pos closed]
        · rw [client] at still
          exact absurd rfl still
      exfalso
      have moved := drainRxStage_moved { console with
        client := some { socket with unread := socket.unread.drop readChunk }
        rxStage := console.rxStage ++ socket.unread.take readChunk }
      rw [moved.client] at still
      exact still rfl
    rw [gone]
    exact (disconnect_eased console).2 connected

abbrev workFor (console : Console α) (steps : Nat) : Option (Console α) := console.run (List.replicate steps .worker)

theorem run_append (console : Console α) (first second : List (Event α)) :
    console.run (first ++ second) = (console.run first).bind fun after => after.run second := by
  induction first generalizing console with
  | nil => rfl
  | cons event first ih =>
    simp only [cons_append, Console.run]
    cases console.step event with
    | none => rfl
    | some after => exact ih after

theorem workFor_add {console middle after : Console α} {first second : Nat}
    (begun : console.workFor first = some middle) (ended : middle.workFor second = some after) :
    console.workFor (first + second) = some after := by
  unfold workFor
  rw [replicate_add, run_append]
  simp only [workFor] at begun ended
  rw [begun]
  exact ended

theorem work_eased {after : Console α} (worked : console.work = some after) : Eased console after := by
  unfold Console.work at worked
  split at worked
  · cases worked
    exact .of_same rfl rfl rfl
  · split at worked
    · cases worked
      exact .of_same rfl rfl rfl
    · cases worked
  · cases worked
    split
    · exact (handleKicks_eased console).1.trans (.of_same rfl rfl rfl)
    · exact .of_same rfl rfl rfl
  · cases worked
    split
    · exact (accept_eased console).1.trans (.of_same rfl rfl rfl)
    · exact .of_same rfl rfl rfl
  · cases worked
    split
    · exact (read_eased console).trans (.of_same rfl rfl rfl)
    · exact .of_same rfl rfl rfl
  · cases worked
    split
    · exact (disconnect_eased console).1.trans (.of_same rfl rfl rfl)
    · exact .of_same rfl rfl rfl

def stepsToPoll : Phase → Nat
  | .polling _ => 0
  | .top => 1
  | .hangup _ => 2
  | .reading _ => 3
  | .accepting _ => 4
  | .commands _ => 5

theorem reaches_poll (steps : Nat) (left : stepsToPoll console.phase = steps) :
    ∃ after interest, console.workFor steps = some after ∧ after.phase = .polling interest ∧ Eased console after := by
  induction steps generalizing console with
  | zero =>
    refine ⟨console, ?_⟩
    cases phase : console.phase with
    | polling interest => exact ⟨interest, rfl, rfl, .of_same rfl rfl rfl⟩
    | top | hangup revents | reading revents | accepting revents | commands revents =>
      simp [phase, stepsToPoll] at left
  | succ steps ih =>
    have next : ∃ middle, console.work = some middle ∧ stepsToPoll middle.phase = steps := by
      unfold Console.work
      cases phase : console.phase with
      | polling interest => simp [phase, stepsToPoll] at left
      | top | hangup revents | reading revents | accepting revents | commands revents =>
        rw [phase] at left
        exact ⟨_, rfl, Nat.succ.inj left⟩
    obtain ⟨middle, worked, later⟩ := next
    obtain ⟨after, interest, ended, phase, eased⟩ := ih later
    refine ⟨after, interest, ?_, phase, (work_eased worked).trans eased⟩
    show (console.work).bind (fun middle => middle.workFor steps) = some after
    rw [worked]
    exact ended

theorem round_eases (closed : AllClosed console) {interest : Bool}
    (phase : console.phase = .polling interest) (ready : (console.revents interest).any = true) :
    ∃ after next, console.workFor 6 = some after ∧ after.phase = .polling next ∧ AllClosed after ∧
      after.toDo < console.toDo := by
  let revents := console.revents interest
  let polled : Console α := { console with phase := .commands revents }
  let kicked : Console α := { (if revents.wake then polled.handleKicks else polled) with phase := .accepting revents }
  let taken : Console α := { (if revents.accept then kicked.accept else kicked) with phase := .reading revents }
  let readOut : Console α := { (if revents.readable then taken.read else taken) with phase := .hangup revents }
  let ended : Console α := { (if revents.hangup then readOut.disconnect else readOut) with phase := .top }
  let again : Console α := { ended with
    hostOpen := ended.client.isSome
    phase := .polling (ended.client.isSome && ended.rxHasCapacity) }
  have starts : console.work = some polled := by
    unfold Console.work
    rw [phase]
    exact if_pos ready
  have first : Eased console polled := work_eased starts
  have second : Eased polled kicked := work_eased rfl
  have third : Eased kicked taken := work_eased rfl
  have fourth : Eased taken readOut := work_eased rfl
  have fifth : Eased readOut ended := work_eased rfl
  have sixth : Eased ended again := work_eased rfl
  refine ⟨again, _, ?_, rfl, ?_, ?_⟩
  · show (console.work).bind (fun middle => middle.workFor 5) = some again
    rw [starts]
    rfl
  · exact (((((first.trans second).trans third).trans fourth).trans fifth).trans sixth).closed closed
  have later : again.toDo ≤ ended.toDo := sixth.toDo
  have before : ended.toDo ≤ taken.toDo := Nat.le_trans fifth.toDo fourth.toDo
  by_cases woken : console.woken = true
  · -- The wakeup is gone.
    have strict : kicked.toDo < polled.toDo := by
      have wake : revents.wake = true := woken
      simp only [kicked, wake, if_true]
      exact (handleKicks_eased polled).2 woken
    have := first.toDo
    have := third.toDo
    omega
  have wake : revents.wake = false := Bool.eq_false_iff.mpr woken
  have same : kicked = { polled with phase := .accepting revents } := by simp [kicked, wake]
  cases connected : console.client with
  | none =>
    -- Nothing but a client in the backlog was reported.
    have accept : revents.accept = true := by
      simpa [Revents.any, revents, Console.revents, connected, Bool.eq_false_iff.mpr woken] using ready
    have waiting : console.backlog ≠ [] := by simpa [revents, Console.revents] using accept
    have strict : taken.toDo < kicked.toDo := by
      have free : kicked.client = none := by rw [same]; exact connected
      have queue : kicked.backlog ≠ [] := by rw [same]; exact waiting
      simp only [taken, accept, if_true]
      exact (accept_eased kicked).2 free queue
    have := first.toDo
    have := second.toDo
    omega
  | some socket =>
    -- The client has closed, so its hang-up was reported.
    have isClosed : socket.closed = true := closed socket (by simp [Console.live, connected])
    have hangup : revents.hangup = true := by simp [revents, Console.revents, connected, isClosed]
    have still : taken.client = some socket := by
      have client : kicked.client = some socket := by rw [same]; exact connected
      simp only [taken, Console.accept, client]
      split
      · exact client
      · exact client
    have strict : ended.toDo < taken.toDo := by
      have less := read_disconnect_eased (by rw [still]; rfl : taken.client.isSome = true) revents.readable
      simp only [ended, hangup, if_true]
      exact less
    have := first.toDo
    have := second.toDo
    have := third.toDo
    omega

theorem comes_to_rest (closed : AllClosed console) :
    ∃ steps after, console.workFor steps = some after ∧ after.work = none ∧ AllClosed after := by
  have polls : ∀ (amount : Nat) (console : Console α) (interest : Bool), AllClosed console → console.toDo = amount →
      console.phase = .polling interest →
      ∃ steps after, console.workFor steps = some after ∧ after.work = none ∧ AllClosed after := by
    intro amount
    induction amount using Nat.strongRecOn with
    | ind amount ih =>
      intro console interest closed measured phase
      by_cases ready : (console.revents interest).any = true
      · obtain ⟨middle, next, begun, polling, still, less⟩ := round_eases closed phase ready
        obtain ⟨steps, after, ended, rests, last⟩ := ih middle.toDo (measured ▸ less) middle next still rfl polling
        exact ⟨6 + steps, after, workFor_add begun ended, rests, last⟩
      refine ⟨0, console, rfl, ?_, closed⟩
      unfold Console.work
      rw [phase]
      exact if_neg ready
  obtain ⟨middle, interest, begun, polling, eased⟩ := reaches_poll (stepsToPoll console.phase) rfl
  obtain ⟨steps, after, ended, rests, last⟩ := polls middle.toDo middle interest (eased.closed closed) rfl polling
  exact ⟨_, after, workFor_add begun ended, rests, last⟩

/-- The guest keeps the port open and has a receive buffer left. -/
def Served (console : Console α) : Prop := console.RxOpen ∧ console.chains ≠ []

theorem Sound.staged_delivered (sound : Sound console) (asleep : console.woken = false)
    (served : Served console) : console.delivered ++ unreadOf console.client = console.accepted.flatten := by
  have unkicked : console.kicks = [] := by
    by_contra kicked
    exact absurd (asleep.symm.trans (sound.woken kicked)) Bool.false_ne_true
  have stage : console.rxStage = [] := by
    rcases sound.staged with drained | kicked
    · exact (drained served.1).resolve_right served.2
    · rw [unkicked] at kicked
      cases kicked
  have conserved := sound.conserved
  rwa [stage, append_nil] at conserved

theorem falls_asleep (console : Console α) : ∃ steps after, console.workFor steps = some after ∧ after.woken = false := by
  obtain ⟨middle, interest, begun, phase, -⟩ := reaches_poll (stepsToPoll console.phase) rfl
  by_cases woken : middle.woken = true
  · have handled : middle.workFor 2 = some { { middle with phase := .commands (middle.revents interest) }.handleKicks with
        phase := .accepting (middle.revents interest) } := by
      simp [workFor, Console.run, Console.step, Console.work, phase, Revents.any, Console.revents, woken]
    exact ⟨_, _, workFor_add begun handled, (handleKicks_moved _).woken⟩
  · exact ⟨_, middle, begun, Bool.eq_false_iff.mpr woken⟩

theorem Sound.delivers (sound : Sound console) (closed : AllClosed console)
    (rests : console.work = none) (served : Served console) :
    console.live = [] ∧ console.delivered = console.accepted.flatten := by
  have idle : ∃ interest, (console.revents interest).any = false := by
    unfold Console.work at rests
    split at rests
    · cases rests
    · next interest _ =>
      split at rests
      · cases rests
      · next quiet => exact ⟨interest, Bool.eq_false_iff.mpr quiet⟩
    · cases rests
    · cases rests
    · cases rests
    · cases rests
  obtain ⟨interest, nothing⟩ := idle
  simp only [Revents.any, Console.revents, Bool.or_eq_false_iff] at nothing
  obtain ⟨⟨⟨asleep, noBacklog⟩, -⟩, noHangup⟩ := nothing
  have backlog : console.backlog = [] := by simpa using noBacklog
  have client : console.client = none := by
    cases connected : console.client with
    | none => rfl
    | some socket =>
      have isClosed := closed socket (by simp [Console.live, connected])
      simp [connected, isClosed] at noHangup
  refine ⟨by simp [Console.live, client, backlog], ?_⟩
  simpa [client, unreadOf] using sound.staged_delivered asleep served

def openedPort : List (Event Nat) := [.activate, .openPort true] ++ List.replicate 7 .worker

def briefClient : List (Event Nat) := [.connect] ++ List.replicate 6 .worker ++ [.write none [7], .close none]

/-- A client writes two bytes and closes, of which the guest has room for one; it makes room for the other when another
client is connected. -/
def successiveClients : List (Event Nat) :=
  openedPort ++ [.refill [1], .connect] ++ List.replicate 6 .worker ++ [.write none [7, 8], .close none] ++
    List.replicate 6 .worker ++ [.connect] ++ List.replicate 6 .worker ++ [.refill [16, 16]] ++ List.replicate 6 .worker

end Vmlab.Virtio.Console
