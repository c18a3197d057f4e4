import Vmlab.Library.SortedMap

/-!
# Downloads and reloads of a running lab

The deferred downloads of a lab and what runs against them (`labd/pull_ledger.rs`), the drain of the ledger
(`labd/lab.rs`) and the rebuilds of machines (`labd/lab/reload.rs`). Drain and rebuilds are each serialised by a lock
of their own; neither lock keeps the other side out.
-/

namespace Vmlab.Labd

open Library List

abbrev Name := List Char

inductive PullKind where
  | template
  | container
  deriving DecidableEq

def PullKind.asStr : PullKind → String
  | .template => "template"
  | .container => "container"

def PullKind.subject : PullKind → String
  | .template => "vm"
  | .container => "container"

inductive PullJob where
  | template (reference arch : Name)
  | image (reference arch : Name)
  deriving DecidableEq

namespace PullJob

def reference : PullJob → Name
  | template reference _ => reference
  | image reference _ => reference

def arch : PullJob → Name
  | template _ arch => arch
  | image _ arch => arch

def kind : PullJob → PullKind
  | template .. => .template
  | image .. => .container

def unitFields : PullJob → String × String
  | template .. => ("chunk", "chunks")
  | image .. => ("layer", "layers")

def rank (job : PullJob) : Bool ×ₗ Name ×ₗ Name :=
  toLex (decide (job.kind = .container), toLex (job.reference, job.arch))

theorem rank_injective : Function.Injective rank := by
  intro left right same
  have parts := Prod.mk.inj (toLex.injective same)
  have names := Prod.mk.inj (toLex.injective parts.2)
  cases left with
  | template reference arch =>
    cases right with
    | template => exact congrArg₂ template names.1 names.2
    | image => exact absurd parts.1 Bool.false_ne_true
  | image reference arch =>
    cases right with
    | template => exact absurd parts.1.symm Bool.false_ne_true
    | image => exact congrArg₂ image names.1 names.2

instance : LinearOrder PullJob := LinearOrder.lift' rank rank_injective

end PullJob

structure PullBatch where
  job : PullJob
  machines : List Name

structure PullProgress where
  unit : Nat
  units : Nat
  bytesDone : Nat
  bytesTotal : Nat

inductive PullOutcome where
  | done
  | cancelled
  | failed (reason : String)
  deriving DecidableEq

inductive Value where
  | text (value : String)
  | number (value : Nat)

structure PullEvent where
  name : String
  payload : List (String × Value)

structure ActivePull (H : Type) where
  job : PullJob
  machines : List Name
  bytesDone : Nat
  bytesTotal : Nat
  percent : Nat
  handle : H

inductive Cancellation (H : Type) where
  | active (handle : H) (machines : List Name)
  | pending
  | unknown

structure PullLedger (H : Type) where
  pending : SortedMap Name PullJob
  active : List (ActivePull H)

def pullPercent (bytesDone bytesTotal : Nat) : Nat :=
  if bytesTotal = 0 then 0 else min (bytesDone * 100) (2 ^ 64 - 1) / bytesTotal % 2 ^ 32

namespace PullLedger

variable {H : Type}

def new (pending : SortedMap Name PullJob) : PullLedger H := ⟨pending, []⟩

section

variable (ledger : PullLedger H)

def nothingPending : Bool := ledger.pending.entries.isEmpty

def isPending (machine : Name) : Bool := (ledger.pending.get? machine).isSome

def isActive (machine : Name) : Bool :=
  ledger.active.any fun active => decide (machine ∈ active.machines)

def setPending (machine : Name) (job : Option PullJob) : PullLedger H :=
  match job with
  | some job => { ledger with pending := ledger.pending.insert machine job }
  | none => { ledger with pending := ledger.pending.erase machine }

end

def group (byJob : SortedMap PullJob (List Name)) (entry : Name × PullJob) : SortedMap PullJob (List Name) :=
  byJob.insert entry.2 ((byJob.get? entry.2).getD [] ++ [entry.1])

def batches (ledger : PullLedger H) (targets : List Name) : List PullBatch :=
  let wanted := ledger.pending.entries.filter fun entry => targets.isEmpty || decide (entry.1 ∈ targets)
  (wanted.foldl group .empty).entries.map fun entry => ⟨entry.1, entry.2⟩

def text (name : Name) : Value := .text (String.ofList name)

def begin (ledger : PullLedger H) (batch : PullBatch) (handle : H) : PullLedger H × List PullEvent :=
  ({ ledger with active := ledger.active ++ [⟨batch.job, batch.machines, 0, 0, 0, handle⟩] },
    batch.machines.map fun machine =>
      ⟨batch.job.kind.asStr ++ ".pull.start",
        [(batch.job.kind.subject, text machine), ("reference", text batch.job.reference), ("arch", text batch.job.arch)]⟩)

def updateFirst (job : PullJob) (change : ActivePull H → ActivePull H) : List (ActivePull H) → List (ActivePull H)
  | [] => []
  | active :: rest => if active.job = job then change active :: rest else active :: updateFirst job change rest

def ActivePull.report (report : PullProgress) (active : ActivePull H) : ActivePull H :=
  { active with
    bytesDone := report.bytesDone
    bytesTotal := report.bytesTotal
    percent := pullPercent report.bytesDone report.bytesTotal }

def progress (ledger : PullLedger H) (batch : PullBatch) (report : PullProgress) : PullLedger H × List PullEvent :=
  match ledger.active.find? fun active => active.job = batch.job with
  | none => (ledger, [])
  | some active =>
    let (unit, units) := active.job.unitFields
    ({ ledger with active := updateFirst batch.job (ActivePull.report report) ledger.active },
      active.machines.map fun machine =>
        ⟨active.job.kind.asStr ++ ".pull.progress",
          [(active.job.kind.subject, text machine), ("reference", text active.job.reference),
            (unit, .number report.unit), (units, .number report.units), ("bytes_done", .number report.bytesDone),
            ("bytes_total", .number report.bytesTotal),
            ("percent", .number (pullPercent report.bytesDone report.bytesTotal))]⟩)

def removeFirst (job : PullJob) : List (ActivePull H) → List (ActivePull H)
  | [] => []
  | active :: rest => if active.job = job then rest else active :: removeFirst job rest

/-- Retire a batch: one that is done satisfies its machines, anything else leaves them pending. -/
def finish (ledger : PullLedger H) (batch : PullBatch) (outcome : PullOutcome) : PullLedger H × List PullEvent :=
  match ledger.active.find? fun active => active.job = batch.job with
  | none => (ledger, [])
  | some active =>
    let pending := if outcome = .done then active.machines.foldl SortedMap.erase ledger.pending else ledger.pending
    let ending := match outcome with
      | .done => "done"
      | .cancelled => "cancelled"
      | .failed _ => "error"
    let reason := match outcome with
      | .failed reason => [("error", Value.text reason)]
      | _ => []
    (⟨pending, removeFirst batch.job ledger.active⟩,
      active.machines.map fun machine =>
        ⟨active.job.kind.asStr ++ ".pull." ++ ending,
          [(active.job.kind.subject, text machine), ("reference", text active.job.reference)] ++ reason⟩)

def cancel (ledger : PullLedger H) (machine : Name) : Cancellation H :=
  match ledger.active.find? fun active => decide (machine ∈ active.machines) with
  | some active => .active active.handle active.machines
  | none => if ledger.isPending machine then .pending else .unknown

end PullLedger

/-! ### Drains and reloads, one step between two awaits at a time -/

inductive MachineKind where
  | vm
  | container
  deriving DecidableEq

/-- A machine's declaration: its kind and its block as a reload compares it. -/
structure Declaration where
  kind : MachineKind
  block : Name

/-- A machine the daemon holds: what it was built from and the artefact bound into it. -/
structure Machine where
  built : Declaration
  bound : Option PullJob

/-! ### The reload plan -/

structure Held where
  built : Declaration
  live : Bool
  pulling : Bool

inductive PendingReason where
  | downloading
  | removed
  | running

inductive Action where
  | rebuild
  | add
  | drop
  | pending (reason : PendingReason)

def heldAction (now : Option Declaration) (held : Held) : Option Action :=
  match now with
  | none =>
    if held.pulling then some (.pending .downloading)
    else if held.live then some (.pending .removed)
    else some .drop
  | some now =>
    if now.block = held.built.block then none
    else if held.pulling then some (.pending .downloading)
    else if held.live then some (.pending .running)
    else some .rebuild

def plan (file : SortedMap Name Declaration) (held : SortedMap Name Held) : List (Name × Action) :=
  (held.entries.filterMap fun entry => (heldAction (file.get? entry.1) entry.2).map fun action => (entry.1, action)) ++
    (file.entries.filter fun entry => (held.get? entry.1).isNone).map fun entry => (entry.1, .add)

/-! ### The lab -/

inductive Stage where
  | next
  | downloading (batch : PullBatch) (aborted : Bool)
  | binding (batch : PullBatch) (left : List Name)
  | ending (batch : PullBatch) (outcome : PullOutcome)

structure Drain where
  queue : List PullBatch
  stage : Stage

inductive Rebuild where
  | observing (file : SortedMap Name Declaration) (left : List Name) (held : SortedMap Name Held)
  | building (machine : Name) (declaration : Declaration)
  | placing (machine : Name) (declaration : Declaration)
  | dropping (machine : Name)

inductive Record where
  | waits (machine : Name) (job : Option PullJob)
  | bound (machine : Name) (job : PullJob)
  | cleared (machine : Name) (job : PullJob)

structure Lab where
  config : SortedMap Name Declaration
  machines : SortedMap Name Machine
  pulls : PullLedger Nat
  waiting : List (List Name)
  drain : Option Drain
  rebuild : Option Rebuild
  tasks : Nat
  history : List Record

def Lab.setPending (lab : Lab) (machine : Name) (job : Option PullJob) : Lab :=
  { lab with pulls := lab.pulls.setPending machine job, history := .waits machine job :: lab.history }

def Lab.insert (lab : Lab) (machine : Name) (declaration : Declaration) : Lab :=
  { lab with machines := lab.machines.insert machine ⟨declaration, none⟩ }

/-- A lab as `LabRuntime::build` makes it, from what it built and what each machine waits on. -/
def Lab.build (built : List (Name × Declaration × Option PullJob)) : Lab :=
  built.foldl (fun lab entry =>
      { (lab.setPending entry.1 entry.2.2).insert entry.1 entry.2.1 with
        config := lab.config.insert entry.1 entry.2.1 })
    ⟨.empty, .empty, .new .empty, [], none, none, 0, []⟩

inductive Event where
  | call (targets : List Name)
  | lock (caller : Nat)
  | start
  | progress (report : PullProgress)
  | cancel (machine : Name)
  | downloaded (outcome : PullOutcome)
  | bind (outcome : Except String Unit)
  | finish
  | reload (file : SortedMap Name Declaration)
  | observe (live : Bool)
  | abandon
  | apply (jobs : Name → Option PullJob)
  | settle (machine : Name) (live : Bool)
  | settled (job : Option PullJob)
  | placed
  | dropped

def Lab.toStage (lab : Lab) (queue : List PullBatch) (stage : Stage) : Lab := { lab with drain := some ⟨queue, stage⟩ }

def PullKind.machine : PullKind → MachineKind
  | .template => .vm
  | .container => .container

def Lab.bindInto (lab : Lab) (job : PullJob) (machine : Name) : Lab :=
  match lab.machines.get? machine with
  | none => lab
  | some held =>
    -- One a reload dropped, or made a machine of the other kind, has nothing waiting.
    if held.built.kind = job.kind.machine then
      { lab with
        machines := lab.machines.insert machine { held with bound := some job }
        history := .bound machine job :: lab.history }
    else lab

def Lab.finishPull (lab : Lab) (batch : PullBatch) (outcome : PullOutcome) : Lab :=
  let served := ((lab.pulls.active.find? fun active => active.job = batch.job).map (·.machines)).getD []
  { lab with
    pulls := (lab.pulls.finish batch outcome).1
    history :=
      if outcome = .done then (served.map fun machine => .cleared machine batch.job) ++ lab.history
      else lab.history }

def Lab.observe (lab : Lab) (machine : Name) (live : Bool) : Option Held :=
  (lab.machines.get? machine).map fun held => ⟨held.built, live, lab.pulls.isActive machine⟩

section

variable (file : SortedMap Name Declaration)

def Lab.act (jobs : Name → Option PullJob) (lab : Lab) (step : Name × Action) :
    Lab :=
  match step.2 with
  | .rebuild | .add =>
    match file.get? step.1 with
    | some declaration => (lab.setPending step.1 (jobs step.1)).insert step.1 declaration
    | none => lab
  | .drop => { lab.setPending step.1 none with machines := lab.machines.erase step.1 }
  | .pending _ => lab

def rebase (steps : List (Name × Action)) (entry : Name × Machine) : Machine :=
  if steps.any fun step => step.1 = entry.1 then entry.2
  else
    match file.get? entry.1 with
    | some declaration => { entry.2 with built := declaration }
    | none => entry.2

def rebaseAll (steps : List (Name × Action)) (names : List Name)
    (machines : SortedMap Name Machine) : SortedMap Name Machine :=
  names.foldl (fun machines name =>
    match machines.get? name with
    | some machine => machines.insert name (rebase file steps (name, machine))
    | none => machines) machines

end

section

variable (lab : Lab)

def Lab.applyPlan (file : SortedMap Name Declaration) (held : SortedMap Name Held)
    (jobs : Name → Option PullJob) : Lab :=
  let steps := plan file held
  let lab := steps.foldl (Lab.act file jobs) lab
  { lab with machines := rebaseAll file steps held.keys lab.machines, config := file, rebuild := none }

def Lab.isPending (machine : Name) : Bool :=
  match lab.machines.get? machine with
  | none => false
  | some held =>
    match lab.config.get? machine with
    | none => true
    | some now => decide (now.block ≠ held.built.block)

def Lab.settle (machine : Name) (live : Bool) : Lab :=
  if !lab.isPending machine || live || lab.pulls.isActive machine then lab
  else
    match lab.config.get? machine with
    | some declaration => { lab with rebuild := some (.building machine declaration) }
    | none => { lab with machines := lab.machines.erase machine, rebuild := some (.dropping machine) }

def Lab.ensurePulled (targets : List Name) : Lab :=
  if lab.pulls.nothingPending then lab else { lab with waiting := lab.waiting ++ [targets] }

def Lab.drainStep (drain : Drain) : Event → Option Lab
  | .start =>
    match drain.stage, drain.queue with
    | .next, [] => some { lab with drain := none }
    | .next, batch :: queue =>
      some { lab with
        pulls := (lab.pulls.begin batch lab.tasks).1
        tasks := lab.tasks + 1
        drain := some ⟨queue, .downloading batch false⟩ }
    | _, _ => none
  | .progress report =>
    match drain.stage with
    | .downloading batch _ => some { lab with pulls := (lab.pulls.progress batch report).1 }
    | _ => none
  | .downloaded outcome =>
    match drain.stage, outcome with
    | .downloading batch _, .done => some (lab.toStage drain.queue (.binding batch batch.machines))
    | .downloading batch true, .cancelled => some (lab.toStage drain.queue (.ending batch .cancelled))
    | .downloading batch _, .failed reason => some (lab.toStage drain.queue (.ending batch (.failed reason)))
    | _, _ => none
  | .bind outcome =>
    match drain.stage, outcome with
    | .binding batch [], .ok () => some (lab.toStage drain.queue (.ending batch .done))
    | .binding batch (machine :: left), .ok () =>
      some ((lab.bindInto batch.job machine).toStage drain.queue (.binding batch left))
    | .binding batch (_ :: _), .error reason => some (lab.toStage drain.queue (.ending batch (.failed reason)))
    | _, _ => none
  | .finish =>
    match drain.stage with
    | .ending batch outcome =>
      -- An error leaves the rest of the work list to a later call.
      some { lab.finishPull batch outcome with
        drain := if outcome = .done then some ⟨drain.queue, .next⟩ else none }
    | _ => none
  | _ => none

def Lab.rebuildStep : Rebuild → Event → Option Lab
  | .observing file (machine :: left) held, .observe live =>
    match lab.observe machine live with
    | some seen => some { lab with rebuild := some (.observing file left (held.insert machine seen)) }
    | none => some { lab with rebuild := some (.observing file left held) }
  | .observing file [] held, .apply jobs => some (lab.applyPlan file held jobs)
  | .observing _ [] _, .abandon => some { lab with rebuild := none }
  | .building machine declaration, .settled job =>
    some { lab.setPending machine job with rebuild := some (.placing machine declaration) }
  | .building _ _, .abandon => some { lab with rebuild := none }
  | .placing machine declaration, .placed => some { lab.insert machine declaration with rebuild := none }
  | .dropping machine, .dropped => some { lab.setPending machine none with rebuild := none }
  | _, _ => none

def Lab.cancelPull (machine : Name) : Lab :=
  match lab.pulls.cancel machine with
  | .active _ _ =>
    match lab.drain with
    | some ⟨queue, .downloading batch _⟩ => lab.toStage queue (.downloading batch true)
    | _ => lab
  | _ => lab

/-- One step of the lab; `none` when the event cannot happen. -/
def Lab.step : Event → Option Lab
  | .call targets => some (lab.ensurePulled targets)
  | .lock caller =>
    match lab.drain, lab.waiting[caller]? with
    | none, some targets =>
      some { lab with
        waiting := lab.waiting.eraseIdx caller
        drain := some ⟨lab.pulls.batches targets, .next⟩ }
    | _, _ => none
  | .cancel machine => some (lab.cancelPull machine)
  | .reload file =>
    if lab.rebuild.isNone then some { lab with rebuild := some (.observing file lab.machines.keys .empty) } else none
  | .settle machine live => if lab.rebuild.isNone then some (lab.settle machine live) else none
  | event =>
    match lab.drain.bind fun drain => lab.drainStep drain event with
    | some after => some after
    | none => lab.rebuild.bind fun rebuild => lab.rebuildStep rebuild event

end

/-! ### Artefacts go where they are awaited -/

/-! ### The account of a run -/

/-- What the latest build of a machine found it waiting on. -/
def latest : List Record → Name → Option PullJob
  | [], _ => none
  | .waits machine job :: before, name => if machine = name then job else latest before name
  | .bound _ _ :: before, name => latest before name
  | .cleared _ _ :: before, name => latest before name

/-- Whether the machine's job was retired since its latest build. -/
def retired : List Record → Name → Bool
  | [], _ => false
  | .waits machine _ :: before, name => if machine = name then false else retired before name
  | .bound _ _ :: before, name => retired before name
  | .cleared machine _ :: before, name => if machine = name then true else retired before name

/-- Every artefact bound and every job retired is the one the machine's latest build asked for. -/
def faithful : List Record → Bool
  | [] => true
  | .waits _ _ :: before => faithful before
  | .bound machine job :: before => decide (latest before machine = some job) && faithful before
  | .cleared machine job :: before => decide (latest before machine = some job) && faithful before

section

variable (machines : List Name) (job : PullJob) (before : List Record)

theorem latest_cleared (name : Name) :
    latest (machines.map (fun machine => .cleared machine job) ++ before) name = latest before name := by
  induction machines with
  | nil => rfl
  | cons machine machines ih => exact ih

theorem retired_cleared (name : Name) : retired (machines.map (fun machine => .cleared machine job) ++ before) name =
      (decide (name ∈ machines) || retired before name) := by
  induction machines with
  | nil => simp
  | cons machine machines ih =>
    simp only [map_cons, cons_append, retired]
    rw [ih]
    by_cases same : machine = name
    · simp [same]
    · simp [same, Ne.symm same]

theorem faithful_cleared (asked : ∀ machine ∈ machines, latest before machine = some job)
    (known : faithful before = true) :
    faithful (machines.map (fun machine => .cleared machine job) ++ before) = true := by
  induction machines with
  | nil => exact known
  | cons machine machines ih =>
    simp only [map_cons, cons_append, faithful, Bool.and_eq_true, decide_eq_true_eq]
    refine ⟨?_, ih fun other member => asked other (mem_cons_of_mem machine member)⟩
    rw [latest_cleared]
    exact asked machine mem_cons_self

end

/-! ### The invariant -/

def ActivePull.batch {H : Type} (active : ActivePull H) : PullBatch := ⟨active.job, active.machines⟩

def Stage.batch : Stage → Option PullBatch
  | .next => none
  | .downloading batch _ => some batch
  | .binding batch _ => some batch
  | .ending batch _ => some batch

def Lab.current (lab : Lab) : Option PullBatch := lab.drain.bind fun drain => drain.stage.batch

def Lab.unbound (lab : Lab) : List Name :=
  match lab.drain with
  | some ⟨_, .binding _ left⟩ => left
  | _ => []

structure Sound (lab : Lab) : Prop where
  running : lab.pulls.active.map ActivePull.batch = lab.current.toList
  waits : ∀ batch ∈ lab.current, ∀ machine ∈ batch.machines, lab.pulls.pending.get? machine = some batch.job
  unbound : ∀ batch ∈ lab.current, ∀ machine ∈ lab.unbound, machine ∈ batch.machines
  stands : ∀ machine, lab.pulls.pending.get? machine =
    if retired lab.history machine then none else latest lab.history machine
  faithful : faithful lab.history = true

variable {machine : Name} {H : Type} {event : Event}

namespace Sound

variable {lab after : Lab}

theorem of_same (sound : Sound lab) (drain : after.drain = lab.drain) (pulls : after.pulls = lab.pulls)
    (history : after.history = lab.history) : Sound after := by
  have current : after.current = lab.current := by simp only [Lab.current, drain]
  have unbound : after.unbound = lab.unbound := by simp only [Lab.unbound, drain]
  constructor
  · rw [pulls, current]
    exact sound.running
  · rw [pulls, current]
    exact sound.waits
  · rw [current, unbound]
    exact sound.unbound
  · rw [pulls, history]
    exact sound.stands
  · rw [history]
    exact sound.faithful

theorem asked (sound : Sound lab) {job : PullJob}
    (pending : lab.pulls.pending.get? machine = some job) : latest lab.history machine = some job := by
  rw [sound.stands machine] at pending
  split at pending
  · cases pending
  · exact pending

end Sound

theorem get?_setPending (ledger : PullLedger H) (machine other : Name) (job : Option PullJob) :
    (ledger.setPending machine job).pending.get? other = if machine = other then job else ledger.pending.get? other := by
  cases job with
  | none =>
    simp only [PullLedger.setPending, SortedMap.get?_erase]
    by_cases same : machine = other
    · simp [same]
    · simp [same, Ne.symm same]
  | some job =>
    simp only [PullLedger.setPending, SortedMap.get?_insert]
    by_cases same : machine = other
    · simp [same]
    · simp [same, Ne.symm same]

theorem active_setPending (ledger : PullLedger H) (machine : Name) (job : Option PullJob) :
    (ledger.setPending machine job).active = ledger.active := by
  cases job <;> rfl

def Undisturbed (lab : Lab) (machine : Name) (job : Option PullJob) : Prop :=
  ∀ active ∈ lab.pulls.active, machine ∈ active.machines → job = some active.job

theorem Sound.setPending {lab : Lab} (sound : Sound lab) {job : Option PullJob}
    (undisturbed : Undisturbed lab machine job) : Sound (lab.setPending machine job) := by
  constructor
  · show (lab.pulls.setPending machine job).active.map ActivePull.batch = lab.current.toList
    rw [active_setPending]
    exact sound.running
  · intro batch current other member
    show (lab.pulls.setPending machine job).pending.get? other = _
    rw [get?_setPending]
    split
    · next same =>
      have listed : batch ∈ lab.pulls.active.map ActivePull.batch := by
        rw [sound.running]
        exact Option.mem_toList.mpr current
      obtain ⟨active, running, rfl⟩ := mem_map.mp listed
      exact undisturbed active running (same ▸ member)
    · exact sound.waits batch current other member
  · exact sound.unbound
  · intro other
    show (lab.pulls.setPending machine job).pending.get? other = _
    rw [get?_setPending, sound.stands other]
    simp only [Lab.setPending, retired, latest]
    split
    · rfl
    · rfl
  · exact sound.faithful

/-! ### Steps of the drain -/

variable {batch : PullBatch}

theorem Sound.bindInto {lab : Lab} (sound : Sound lab)
    (pending : lab.pulls.pending.get? machine = some batch.job) : Sound (lab.bindInto batch.job machine) := by
  have bound : Sound { lab with history := .bound machine batch.job :: lab.history } := by
    refine ⟨sound.running, sound.waits, sound.unbound, sound.stands, ?_⟩
    simp only [Labd.faithful, Bool.and_eq_true, decide_eq_true_eq]
    exact ⟨sound.asked pending, sound.faithful⟩
  unfold Lab.bindInto
  split
  · exact sound
  split
  · exact bound.of_same rfl rfl rfl
  · exact sound

theorem drain_bindInto (lab : Lab) (job : PullJob) (machine : Name) :
    (lab.bindInto job machine).drain = lab.drain := by
  unfold Lab.bindInto
  split
  · rfl
  split
  · rfl
  · rfl

theorem updateFirst_batches (job : PullJob) (report : PullProgress) (active : List (ActivePull H)) :
    (PullLedger.updateFirst job (PullLedger.ActivePull.report report) active).map ActivePull.batch =
      active.map ActivePull.batch := by
  induction active with
  | nil => rfl
  | cons first rest ih =>
    unfold PullLedger.updateFirst
    split
    · rfl
    · simp only [map_cons, ih]

theorem progress_ledger (ledger : PullLedger H) (batch : PullBatch) (report : PullProgress) :
    (ledger.progress batch report).1.pending = ledger.pending ∧
      (ledger.progress batch report).1.active.map ActivePull.batch = ledger.active.map ActivePull.batch := by
  unfold PullLedger.progress
  split
  · exact ⟨rfl, rfl⟩
  · exact ⟨rfl, updateFirst_batches batch.job report ledger.active⟩

variable {queue : List PullBatch}

theorem Sound.toStage {lab : Lab} (sound : Sound lab) {stage : Stage} (same : stage.batch = lab.current)
    (unbound : ∀ batch ∈ lab.current, ∀ machine ∈ (lab.toStage queue stage).unbound, machine ∈ batch.machines) :
    Sound (lab.toStage queue stage) := by
  have current : (lab.toStage queue stage).current = lab.current := same
  refine ⟨?_, ?_, ?_, sound.stands, sound.faithful⟩
  · rw [current]
    exact sound.running
  · rw [current]
    exact sound.waits
  · rw [current]
    exact unbound

theorem Sound.start {lab : Lab} (sound : Sound lab)
    (idle : lab.current = none) (awaited : ∀ machine ∈ batch.machines, lab.pulls.pending.get? machine = some batch.job) :
    Sound { lab with
      pulls := (lab.pulls.begin batch lab.tasks).1
      tasks := lab.tasks + 1
      drain := some ⟨queue, .downloading batch false⟩ } := by
  have none : lab.pulls.active = [] := by
    have running := sound.running
    rw [idle] at running
    exact map_eq_nil_iff.mp running
  refine ⟨?_, ?_, ?_, sound.stands, sound.faithful⟩
  · show (lab.pulls.active ++ [_]).map ActivePull.batch = [batch]
    rw [none]
    rfl
  · intro other current
    cases current
    exact awaited
  · intro other current machine member
    cases member

theorem find?_of_running {actives : List (ActivePull H)} (running : actives.map ActivePull.batch = [batch]) :
    ∃ active, actives = [active] ∧ active.batch = batch ∧
      (actives.find? fun active => active.job = batch.job) = some active := by
  cases actives with
  | nil => cases running
  | cons active rest =>
    cases rest with
    | cons other rest => cases running
    | nil =>
      obtain ⟨same, -⟩ := List.cons.inj running
      refine ⟨active, rfl, same, ?_⟩
      rw [← same]
      simp [ActivePull.batch]

theorem Sound.finishPull {lab : Lab} (sound : Sound lab) {outcome : PullOutcome}
    (current : lab.current = some batch) {drain : Option Drain}
    (idle : drain.bind (fun drain => drain.stage.batch) = none) :
    Sound { lab.finishPull batch outcome with drain := drain } := by
  have running := sound.running
  rw [current] at running
  obtain ⟨active, actives, rfl, found⟩ := find?_of_running running
  have emptied : (lab.pulls.finish active.batch outcome).1.active = [] := by
    simp only [PullLedger.finish, found]
    rw [actives]
    simp [PullLedger.removeFirst, ActivePull.batch]
  have quiet : ({ lab.finishPull active.batch outcome with drain := drain } : Lab).current = none := idle
  refine ⟨?_, ?_, ?_, ?_, ?_⟩
  · rw [quiet]
    show (lab.pulls.finish active.batch outcome).1.active.map ActivePull.batch = []
    rw [emptied]
    rfl
  · rw [quiet]
    intro other impossible
    cases impossible
  · rw [quiet]
    intro other impossible
    cases impossible
  · intro machine
    have stands := sound.stands machine
    simp only [Lab.finishPull, PullLedger.finish, found, Option.map_some, Option.getD_some]
    by_cases done : outcome = .done
    · rw [if_pos done, if_pos done, SortedMap.get?_foldl_erase, retired_cleared, latest_cleared, stands]
      by_cases served : machine ∈ active.machines
      · simp [served]
      · simp [served]
    · rw [if_neg done, if_neg done]
      exact stands
  · simp only [Lab.finishPull, found, Option.map_some, Option.getD_some]
    by_cases done : outcome = .done
    · rw [if_pos done]
      refine faithful_cleared active.machines active.batch.job lab.history ?_ sound.faithful
      intro machine member
      exact sound.asked (sound.waits active.batch current machine member)
    · rw [if_neg done]
      exact sound.faithful

/-! ### Steps of a rebuild -/

theorem active_act (file : SortedMap Name Declaration) (jobs : Name → Option PullJob) (lab : Lab)
    (step : Name × Action) : (Lab.act file jobs lab step).pulls.active = lab.pulls.active := by
  unfold Lab.act
  split
  · split
    · exact active_setPending lab.pulls step.1 (jobs step.1)
    · rfl
  · split
    · exact active_setPending lab.pulls step.1 (jobs step.1)
    · rfl
  · exact active_setPending lab.pulls step.1 none
  · rfl

def Action.job (jobs : Name → Option PullJob) (step : Name × Action) : Option (Option PullJob) :=
  match step.2 with
  | .rebuild => some (jobs step.1)
  | .add => some (jobs step.1)
  | .drop => some none
  | .pending _ => none

variable {jobs : Name → Option PullJob} {file : SortedMap Name Declaration}

theorem Sound.act {lab : Lab} (sound : Sound lab)
    {step : Name × Action} (undisturbed : ∀ job ∈ Action.job jobs step, Undisturbed lab step.1 job) :
    Sound (Lab.act file jobs lab step) := by
  obtain ⟨machine, action⟩ := step
  unfold Lab.act
  dsimp only
  cases action with
  | rebuild | add =>
    cases file.get? machine with
    | none => exact sound
    | some declaration => exact (sound.setPending (undisturbed _ rfl)).of_same rfl rfl rfl
  | drop => exact (sound.setPending (undisturbed _ rfl)).of_same rfl rfl rfl
  | pending reason => exact sound

theorem Sound.acts (steps : List (Name × Action)) {lab : Lab} (sound : Sound lab)
    (undisturbed : ∀ step ∈ steps, ∀ job ∈ Action.job jobs step, Undisturbed lab step.1 job) :
    Sound (steps.foldl (Lab.act file jobs) lab) := by
  induction steps generalizing lab with
  | nil => exact sound
  | cons first rest ih =>
    refine ih (sound.act (undisturbed first mem_cons_self)) ?_
    intro step member job asked active running
    rw [active_act] at running
    exact undisturbed step (mem_cons_of_mem first member) job asked active running

/-! ### Runs -/

/-- A batch starts only while each of its machines still waits on its job, and no machine of a running batch is given
another job. -/
def Fits (lab : Lab) : Event → Prop
  | .start =>
    match lab.drain with
    | some ⟨batch :: _, .next⟩ => ∀ machine ∈ batch.machines, lab.pulls.pending.get? machine = some batch.job
    | _ => True
  | .apply jobs =>
    match lab.rebuild with
    | some (.observing file [] held) =>
      ∀ step ∈ plan file held, ∀ job ∈ Action.job jobs step, Undisturbed lab step.1 job
    | _ => True
  | .settled job =>
    match lab.rebuild with
    | some (.building machine _) => Undisturbed lab machine job
    | _ => True
  | .dropped =>
    match lab.rebuild with
    | some (.dropping machine) => Undisturbed lab machine none
    | _ => True
  | _ => True

instance (lab : Lab) (event : Event) : Decidable (Fits lab event) := by
  unfold Fits Undisturbed
  split
  all_goals first
    | infer_instance
    | (split <;> infer_instance)

theorem Sound.drainStep {lab after : Lab} (sound : Sound lab) {drain : Drain} (holds : lab.drain = some drain)
    (fits : Fits lab event) (stepped : lab.drainStep drain event = some after) : Sound after := by
  obtain ⟨queue, stage⟩ := drain
  have current : lab.current = stage.batch := by simp [Lab.current, holds]
  cases event with
  | start =>
    cases stage with
    | next =>
      cases queue with
      | nil =>
        cases stepped
        refine ⟨?_, ?_, ?_, sound.stands, sound.faithful⟩
        · have running := sound.running
          rw [current] at running
          exact running
        · intro other impossible
          cases impossible
        · intro other impossible
          cases impossible
      | cons batch queue =>
        cases stepped
        simp only [Fits, holds] at fits
        exact sound.start current fits
    | downloading batch aborted | binding batch left | ending batch outcome => cases stepped
  | progress report =>
    cases stage with
    | downloading batch aborted =>
      cases stepped
      obtain ⟨pending, actives⟩ := progress_ledger lab.pulls batch report
      refine ⟨?_, ?_, sound.unbound, ?_, sound.faithful⟩
      · exact actives.trans sound.running
      · intro other running machine member
        show (lab.pulls.progress batch report).1.pending.get? machine = _
        rw [pending]
        exact sound.waits other running machine member
      intro machine
      show (lab.pulls.progress batch report).1.pending.get? machine = _
      rw [pending]
      exact sound.stands machine
    | next | binding batch left | ending batch outcome => cases stepped
  | downloaded outcome =>
    cases stage with
    | downloading batch aborted =>
      cases outcome with
      | done =>
        cases stepped
        refine sound.toStage current.symm ?_
        intro other running machine member
        rw [current] at running
        cases running
        exact member
      | cancelled =>
        cases aborted with
        | false => cases stepped
        | true =>
          cases stepped
          refine sound.toStage current.symm ?_
          intro other running machine member
          cases member
      | failed reason =>
        cases stepped
        refine sound.toStage current.symm ?_
        intro other running machine member
        cases member
    | next | binding batch left | ending batch other => cases outcome <;> cases stepped
  | bind outcome =>
    cases stage with
    | binding batch left =>
      cases left with
      | nil =>
        cases outcome with
        | ok value =>
          cases stepped
          refine sound.toStage current.symm ?_
          intro other running machine member
          cases member
        | error reason => cases stepped
      | cons machine left =>
        have unbound : lab.unbound = machine :: left := by simp [Lab.unbound, holds]
        cases outcome with
        | ok value =>
          cases stepped
          have listed : machine ∈ batch.machines :=
            sound.unbound batch (by rw [current]; rfl) machine (by rw [unbound]; exact mem_cons_self)
          have pending := sound.waits batch (by rw [current]; rfl) machine listed
          have bound : (lab.bindInto batch.job machine).current = some batch := by
            simp [Lab.current, drain_bindInto, holds, Stage.batch]
          refine (sound.bindInto pending).toStage bound.symm ?_
          intro other running next member
          rw [bound] at running
          cases running
          exact sound.unbound batch (by rw [current]; rfl) next
            (by rw [unbound]; exact mem_cons_of_mem machine member)
        | error reason =>
          cases stepped
          refine sound.toStage current.symm ?_
          intro other running next member
          cases member
    | next | downloading batch aborted | ending batch other => cases outcome <;> cases stepped
  | finish =>
    cases stage with
    | ending batch outcome =>
      cases stepped
      refine sound.finishPull current ?_
      split
      · rfl
      · rfl
    | next | downloading batch aborted | binding batch left => cases stepped
  | call targets | lock caller | cancel machine | reload file | observe live | abandon | apply jobs
  | settle machine live | settled job | placed | dropped => cases stepped

theorem Sound.rebuildStep {lab after : Lab} (sound : Sound lab) {rebuild : Rebuild}
    (holds : lab.rebuild = some rebuild) (fits : Fits lab event)
    (stepped : lab.rebuildStep rebuild event = some after) : Sound after := by
  unfold Lab.rebuildStep at stepped
  split at stepped
  · split at stepped
    · cases stepped
      exact sound.of_same rfl rfl rfl
    · cases stepped
      exact sound.of_same rfl rfl rfl
  · next file held jobs =>
    cases stepped
    simp only [Fits, holds] at fits
    exact (sound.acts (plan file held) fits).of_same rfl rfl rfl
  · cases stepped
    exact sound.of_same rfl rfl rfl
  · next machine declaration job =>
    cases stepped
    simp only [Fits, holds] at fits
    exact (sound.setPending fits).of_same rfl rfl rfl
  · cases stepped
    exact sound.of_same rfl rfl rfl
  · cases stepped
    exact sound.of_same rfl rfl rfl
  · next machine =>
    cases stepped
    simp only [Fits, holds] at fits
    exact (sound.setPending fits).of_same rfl rfl rfl
  · cases stepped

section

variable {lab : Lab} (sound : Sound lab)
include sound

theorem Sound.cancelPull (machine : Name) : Sound (lab.cancelPull machine) := by
  unfold Lab.cancelPull
  split
  · split
    · next queue batch aborted holds =>
      have current : lab.current = some batch := by simp [Lab.current, holds, Stage.batch]
      refine sound.toStage current.symm ?_
      intro other running next member
      cases member
    · exact sound
  · exact sound

theorem Sound.lock (waiting : List (List Name)) (queue : List PullBatch)
    (free : lab.drain = none) : Sound { lab with waiting := waiting, drain := some ⟨queue, .next⟩ } := by
  have idle : lab.current = none := by simp [Lab.current, free]
  refine ⟨?_, ?_, ?_, sound.stands, sound.faithful⟩
  · have running := sound.running
    rw [idle] at running
    exact running
  · intro other impossible
    cases impossible
  · intro other impossible
    cases impossible

theorem Sound.settle (machine : Name) (live : Bool) : Sound (lab.settle machine live) := by
  unfold Lab.settle
  split
  · exact sound
  split
  · exact sound.of_same rfl rfl rfl
  · exact sound.of_same rfl rfl rfl

end

section

variable {lab after : Lab} (sound : Sound lab) (fits : Fits lab event)
include sound fits

theorem Sound.held
    (stepped : (match lab.drain.bind fun drain => lab.drainStep drain event with
    | some after => some after
    | none => lab.rebuild.bind fun rebuild => lab.rebuildStep rebuild event) = some after) : Sound after := by
  split at stepped
  · next moved =>
    cases stepped
    obtain ⟨drain, holds, step⟩ := Option.bind_eq_some_iff.mp moved
    exact sound.drainStep holds fits step
  · obtain ⟨rebuild, holds, step⟩ := Option.bind_eq_some_iff.mp stepped
    exact sound.rebuildStep holds fits step

theorem Sound.step (stepped : lab.step event = some after) : Sound after := by
  unfold Lab.step at stepped
  split at stepped
  · cases stepped
    unfold Lab.ensurePulled
    split
    · exact sound
    · exact sound.of_same rfl rfl rfl
  · split at stepped
    · next free _ =>
      cases stepped
      exact sound.lock _ _ free
    · cases stepped
  · cases stepped
    exact sound.cancelPull _
  · split at stepped
    · cases stepped
      exact sound.of_same rfl rfl rfl
    · cases stepped
  · split at stepped
    · cases stepped
      exact sound.settle _ _
    · cases stepped
  · exact sound.held fits stepped

end

def Lab.run (lab : Lab) : List Event → Option Lab
  | [] => some lab
  | event :: later => (lab.step event).bind fun after => after.run later

def Lab.fitting (lab : Lab) : List Event → Bool
  | [] => true
  | event :: later => decide (Fits lab event) && (lab.step event).all fun after => after.fitting later

theorem Sound.run {lab after : Lab} (sound : Sound lab) {events : List Event} (fitting : lab.fitting events = true)
    (ran : lab.run events = some after) : Sound after := by
  induction events generalizing lab with
  | nil =>
    cases ran
    exact sound
  | cons event later ih =>
    obtain ⟨middle, stepped, ran⟩ := Option.bind_eq_some_iff.mp ran
    simp only [Lab.fitting, stepped, Option.all_some, Bool.and_eq_true, decide_eq_true_eq] at fitting
    exact ih (sound.step fitting.1 stepped) fitting.2 ran

theorem sound_build (built : List (Name × Declaration × Option PullJob)) : Sound (Lab.build built) := by
  have empty : Sound ⟨.empty, .empty, .new .empty, [], none, none, 0, []⟩ := by
    refine ⟨rfl, ?_, ?_, fun _ => rfl, rfl⟩
    · intro other impossible
      cases impossible
    · intro other impossible
      cases impossible
  have idle : ∀ (built : List (Name × Declaration × Option PullJob)) (lab : Lab), Sound lab → lab.pulls.active = [] →
      Sound (built.foldl (fun lab entry =>
        { (lab.setPending entry.1 entry.2.2).insert entry.1 entry.2.1 with
          config := lab.config.insert entry.1 entry.2.1 }) lab) := by
    intro built
    induction built with
    | nil =>
      intro lab sound _
      exact sound
    | cons entry rest ih =>
      intro lab sound none
      have undisturbed : Undisturbed lab entry.1 entry.2.2 := by
        intro active running
        rw [none] at running
        cases running
      refine ih _ ((sound.setPending undisturbed).of_same rfl rfl rfl) ?_
      exact (active_setPending lab.pulls entry.1 entry.2.2).trans none
  exact idle built _ empty rfl

/-- In every run whose steps fit, whatever was bound into a machine or retired is what its latest build asked for, and
a machine waits on what its latest build asked for until that is retired. -/
theorem artefacts_go_where_awaited (built : List (Name × Declaration × Option PullJob)) {events : List Event} {lab : Lab}
    (fitting : (Lab.build built).fitting events = true) (ran : (Lab.build built).run events = some lab) :
    faithful lab.history = true ∧
      ∀ machine, retired lab.history machine = false →
        lab.pulls.pending.get? machine = latest lab.history machine := by
  have sound := (sound_build built).run fitting ran
  refine ⟨sound.faithful, ?_⟩
  intro machine standing
  rw [sound.stands machine, standing]
  rfl

/-! ### Two machines with an artefact each -/

def webJob : PullJob := .template "registry/debian".toList "x86_64".toList

def dbJob : PullJob := .template "registry/alpine".toList "x86_64".toList

def editedJob : PullJob := .template "registry/fedora".toList "x86_64".toList

def exampleBuilt : List (Name × Declaration × Option PullJob) :=
  [("db".toList, ⟨.vm, "alpine".toList⟩, some dbJob), ("web".toList, ⟨.vm, "debian".toList⟩, some webJob)]

def editedFile : SortedMap Name Declaration :=
  (SortedMap.empty.insert "db".toList ⟨.vm, "alpine".toList⟩).insert "web".toList ⟨.vm, "fedora".toList⟩

def exampleReload : List Event := [.reload editedFile, .observe false, .observe false, .apply fun _ => some editedJob]

def wholeBatch : List Event := [.start, .downloaded .done, .bind (.ok ()), .bind (.ok ()), .finish]

theorem artefacts_go_where_awaited_reloaded :
    ∃ lab, (Lab.build exampleBuilt).run (exampleReload ++ [.call [], .lock 0] ++ wholeBatch) = some lab ∧
      faithful lab.history = true := by
  have fitting : (Lab.build exampleBuilt).fitting (exampleReload ++ [.call [], .lock 0] ++ wholeBatch) = true := by
    decide +kernel
  have ends : ((Lab.build exampleBuilt).run (exampleReload ++ [.call [], .lock 0] ++ wholeBatch)).isSome = true := by
    decide +kernel
  obtain ⟨lab, ran⟩ := Option.isSome_iff_exists.mp ends
  exact ⟨lab, ran, (artefacts_go_where_awaited exampleBuilt fitting ran).1⟩

/-- The reload comes while the first batch downloads, so the second one still has the old job of `web`. -/
def staleEvents : List Event := [.call [], .lock 0, .start] ++ exampleReload ++ wholeBatch.tail ++ wholeBatch

theorem stale_batch_binds_old_template : (((Lab.build exampleBuilt).run staleEvents).map fun lab =>
      (faithful lab.history, latest lab.history "web".toList, (lab.machines.get? "web".toList).bind (·.bound),
        lab.pulls.pending.get? "web".toList)) = some (false, some editedJob, some webJob, none) := by
  decide +kernel

end Vmlab.Labd
