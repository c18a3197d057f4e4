import Mathlib

/-!
# The AHCI controller's interrupts

How the causes of the ports become MSI messages (`ahci/mod.rs`). A message is sent when a bit of the sticky global
status is set that the remembered copy lacks, so a write that clears the bit of a port whose cause stays sends none.
-/

namespace Vmlab.Devices

abbrev Port := Fin 6

/-- The registers that interrupts depend on; of the global status the bits of the ports, the only ones ever set. -/
structure Ahci where
  globalEnable : Bool
  globalStatus : Port → Bool
  status : Port → BitVec 32
  enable : Port → BitVec 32
  msiEnabled : Bool
  msiPending : Port → Bool

inductive PortRegister where
  | status | enable | other
  deriving DecidableEq

/-- A call of `write_reg` or `config_write`, with the flags that the commands completed by it raise. -/
inductive Write where
  | globalControl (value mask : BitVec 32)
  | globalStatus (value mask : BitVec 32)
  | port (port : Port) (register : PortRegister) (value mask raised : BitVec 32)
  | config (msiEnabled : Option Bool) (raised : Port → BitVec 32)

namespace Ahci

section

variable (ahci : Ahci)

def reset : Ahci :=
  { ahci with
    globalEnable := false, globalStatus := fun _ => false, status := fun _ => 0, enable := fun _ => 0,
    msiPending := fun _ => false }

def cause (port : Port) : Bool := ahci.status port &&& ahci.enable port != 0

/-- `update_irq`, and whether it signals a message. -/
def updateIrq : Ahci × Bool :=
  let globalStatus port := ahci.globalStatus port || ahci.cause port
  let active := decide (∃ port, globalStatus port) && ahci.globalEnable
  let pending port := active && ahci.msiEnabled && globalStatus port
  ({ ahci with globalStatus, msiPending := pending }, decide (∃ port, pending port && !ahci.msiPending port))

/-- What a write does before `update_irq`. -/
def writeReg : Write → Ahci
  | .globalControl value mask =>
    if (value &&& mask).getLsbD 0 then ahci.reset
    else { ahci with globalEnable := if mask.getLsbD 1 then value.getLsbD 1 else ahci.globalEnable }
  | .globalStatus value mask =>
    { ahci with globalStatus := fun port => ahci.globalStatus port && !(value &&& mask).getLsbD port }
  | .port written register value mask raised =>
    let status port := if register = .status then ahci.status port &&& ~~~(value &&& mask) else ahci.status port
    let merged port := (ahci.enable port &&& ~~~mask) ||| (value &&& mask)
    { ahci with
      status := fun port => if port = written then status port ||| raised else ahci.status port
      enable := fun port =>
        if port = written ∧ register = .enable then merged port &&& 0xfdc000ff else ahci.enable port }
  | .config msiEnabled raised =>
    { ahci with
      msiEnabled := msiEnabled.getD ahci.msiEnabled, status := fun port => ahci.status port ||| raised port }

/-- Whether the write clears the port's bit of the global status. -/
def acknowledges (port : Port) : Write → Bool
  | .globalStatus value mask => ahci.globalStatus port && (value &&& mask).getLsbD port
  | _ => false

def messages : Bool := ahci.globalEnable && ahci.msiEnabled

/-- A port's bit is cleared while messages are on and the port's cause stays. -/
def Early (write : Write) : Prop :=
  ahci.messages ∧ ∃ port, ahci.acknowledges port write ∧ ahci.cause port

end

variable {ahci : Ahci} {port : Port} {write : Write}

theorem updateIrq_pending (ahci : Ahci) (port : Port) :
    ahci.updateIrq.1.msiPending port = (ahci.messages && ahci.updateIrq.1.globalStatus port) := by
  simp only [updateIrq, messages]
  grind

theorem updateIrq_raised (raised : ahci.updateIrq.1.msiPending port) : ahci.globalStatus port ∨ ahci.cause port := by
  rw [updateIrq_pending, Bool.and_eq_true_iff] at raised
  exact Bool.or_eq_true_iff.mp raised.2

theorem updateIrq_quiet :
    ahci.updateIrq.2 = false ↔ ∀ port, ahci.updateIrq.1.msiPending port → ahci.msiPending port := by
  show decide (∃ port, ahci.updateIrq.1.msiPending port && !ahci.msiPending port) = false ↔ _
  simp

theorem acknowledges_iff :
    ahci.acknowledges port write ↔ ∃ value mask, write = .globalStatus value mask ∧ ahci.globalStatus port ∧
      (value &&& mask).getLsbD port := by
  cases write <;> simp [acknowledges]

/-- A write never adds to the remembered copy. -/
theorem writeReg_pending (kept : (ahci.writeReg write).msiPending port) : ahci.msiPending port := by
  cases write with
  | globalControl value mask =>
      simp only [writeReg] at kept
      split at kept
      · exact absurd kept Bool.false_ne_true
      · exact kept
  | globalStatus | port | config => exact kept

end Ahci

/-- The controller with the ports whose bit was cleared after the last message. -/
structure Watched where
  ahci : Ahci
  unanswered : Port → Bool

namespace Watched

open Ahci

def step (watched : Watched) (write : Write) : Watched :=
  let updated := (watched.ahci.writeReg write).updateIrq
  ⟨updated.1, fun port =>
    !updated.2 && (watched.unanswered port || watched.ahci.acknowledges port write)⟩

/-- With messages on, no port has an enabled cause and no message since its bit was cleared. -/
def Answered (watched : Watched) : Prop :=
  watched.ahci.messages → ∀ port, watched.ahci.cause port → watched.unanswered port = false

def NeverLost (watched : Watched) : List Write → Prop
  | [] => watched.Answered
  | write :: later => watched.Answered ∧ (watched.step write).NeverLost later

def NeverEarly (watched : Watched) : List Write → Prop
  | [] => True
  | write :: later => ¬ watched.ahci.Early write ∧ (watched.step write).NeverEarly later

/-- What `update_irq` leaves, as long as no bit was cleared too early. -/
structure Settled (watched : Watched) : Prop where
  sticky : ∀ port, watched.ahci.cause port → watched.ahci.globalStatus port
  pending : ∀ port, watched.ahci.msiPending port = (watched.ahci.messages && watched.ahci.globalStatus port)
  unanswered : ∀ port, watched.unanswered port → watched.ahci.msiPending port = false

variable {watched : Watched} {write : Write}

theorem Settled.answered (settled : watched.Settled) : watched.Answered := by
  intro messages port cause
  have pending := settled.pending port
  rw [messages, settled.sticky port cause] at pending
  exact Bool.eq_false_iff.mpr fun owed => Bool.false_ne_true ((settled.unanswered port owed).symm.trans pending)

theorem step_settled (settled : watched.Settled) (timely : ¬ watched.ahci.Early write) :
    (watched.step write).Settled where
  sticky port cause := by
    show (_ || (watched.ahci.writeReg write).cause port) = true
    rw [show (watched.ahci.writeReg write).cause port = true from cause, Bool.or_true]
  pending := updateIrq_pending _
  unanswered port unanswered := by
    obtain ⟨quiet, before⟩ : (watched.ahci.writeReg write).updateIrq.2 = false ∧
        (watched.unanswered port ∨ watched.ahci.acknowledges port write) := by
      simpa [step] using unanswered
    refine Bool.eq_false_iff.mpr fun raised => ?_
    -- without a message the bit was in the remembered copy before the write
    have held := writeReg_pending (updateIrq_quiet.mp quiet port raised)
    rcases before with owed | acknowledged
    · exact Bool.false_ne_true ((settled.unanswered port owed).symm.trans held)
    rw [settled.pending, Bool.and_eq_true_iff] at held
    refine timely ⟨held.1, port, acknowledged, ?_⟩
    obtain ⟨value, mask, rfl, _, cleared⟩ := acknowledges_iff.mp acknowledged
    rcases updateIrq_raised raised with kept | again
    · simp [writeReg, -BitVec.getLsbD_and, cleared] at kept
    · exact again

/-- An early clearing sends no message: the copy still has every bit that is set afterwards. -/
theorem step_lost (settled : watched.Settled) (early : watched.ahci.Early write) :
    ¬ (watched.step write).Answered := by
  obtain ⟨messages, port, acknowledged, cause⟩ := early
  intro answered
  have quiet : (watched.ahci.writeReg write).updateIrq.2 = false := by
    obtain ⟨value, mask, rfl, -⟩ := acknowledges_iff.mp acknowledged
    refine updateIrq_quiet.mpr fun other raised => ?_
    show watched.ahci.msiPending other = true
    rw [settled.pending, messages, Bool.true_and]
    rcases updateIrq_raised raised with kept | again
    · exact (Bool.and_eq_true_iff.mp kept).1
    · exact settled.sticky other again
  obtain ⟨value, mask, rfl, -⟩ := acknowledges_iff.mp acknowledged
  have owed := answered messages port cause
  simp [step, quiet, acknowledged] at owed

theorem neverLost_iff_neverEarly (settled : watched.Settled) (writes : List Write) :
    watched.NeverLost writes ↔ watched.NeverEarly writes := by
  induction writes generalizing watched with
  | nil => exact iff_of_true settled.answered trivial
  | cons write later ih =>
      have first : watched.NeverLost (write :: later) → ¬ watched.ahci.Early write := by
        intro lost early
        refine step_lost settled early ?_
        cases later with
        | nil => exact lost.2
        | cons => exact lost.2.1
      constructor
      · intro lost
        exact ⟨first lost, (ih (step_settled settled (first lost))).mp lost.2⟩
      · rintro ⟨timely, rest⟩
        exact ⟨settled.answered, (ih (step_settled settled timely)).mpr rest⟩

def powerOn : Watched :=
  ⟨⟨false, fun _ => false, fun _ => 0, fun _ => 0, false, fun _ => false⟩, fun _ => false⟩

/-- No interrupt is lost in a run exactly if no write of it clears the bit of a port whose cause stays. -/
theorem powerOn_neverLost_iff (writes : List Write) : powerOn.NeverLost writes ↔ powerOn.NeverEarly writes :=
  neverLost_iff_neverEarly ⟨by decide, by decide, by decide⟩ writes

/-- Port 0 reports a new connection, and the guest clears its global bit before its status. -/
theorem connection_lost : ¬ powerOn.NeverLost
      [.globalControl 2 0xffffffff, .config (some true) fun _ => 0, .port 0 .enable 0x40 0xffffffff 0,
        .port 0 .other 0 0xffffffff 0x400040, .globalStatus 1 0xffffffff] := by
  intro lost
  exact absurd (lost.2.2.2.2.2 rfl 0 rfl) (by decide)

end Watched

end Vmlab.Devices
