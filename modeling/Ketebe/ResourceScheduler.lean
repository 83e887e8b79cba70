import Ketebe.Lib.Runs
import Ketebe.Lib.Tally
import Mathlib.Data.List.Induction

/-!
Admission of background work. A permit holds units of up to six semaphores, which an
acquire takes one after the other; a task that stops on the way returns what it has.
-/
namespace Ketebe

open Lib.Runs Lib.Tally

inductive WorkPriority where
  | high
  | normal
  | low
  deriving DecidableEq, Repr

inductive WorkKind where
  | embedding
  | lexicalBuild
  | compaction
  | migration
  | job
  deriving DecidableEq, Repr

structure ResourceRequest where
  cpu : ℕ
  memory : ℕ
  io : ℕ
  deriving DecidableEq, Repr

namespace WorkKind

def priority : WorkKind → WorkPriority
  | .embedding => .high
  | .lexicalBuild | .migration => .normal
  | .compaction | .job => .low

def resources : WorkKind → ResourceRequest
  | .embedding => ⟨1, 2, 0⟩
  | .lexicalBuild => ⟨2, 2, 2⟩
  | .compaction => ⟨2, 2, 2⟩
  | .migration => ⟨2, 2, 1⟩
  | .job => ⟨1, 1, 1⟩

end WorkKind

inductive ResourceSchedulerError where
  | invalidBudget (message : String)
  | requestExceedsBudget (kind : WorkKind) (request : ResourceRequest)
  | overloaded (kind : WorkKind)
  deriving DecidableEq, Repr

structure ResourceBudget where
  cpu : ℕ
  memory : ℕ
  io : ℕ
  foregroundCpuReserve : ℕ
  foregroundMemoryReserve : ℕ
  foregroundIoReserve : ℕ
  maxBackgroundTasks : ℕ
  deriving DecidableEq, Repr

namespace ResourceBudget

def default : ResourceBudget := ⟨8, 8, 8, 2, 2, 2, 4⟩

def validate (budget : ResourceBudget) : Except ResourceSchedulerError ResourceBudget :=
  if budget.cpu = 0 ∨ budget.memory = 0 ∨ budget.io = 0 ∨ budget.maxBackgroundTasks = 0 then
    .error (.invalidBudget
      "resource totals and max_background_tasks must be greater than zero")
  else if budget.cpu ≤ budget.foregroundCpuReserve ∨
      budget.memory ≤ budget.foregroundMemoryReserve ∨ budget.io ≤ budget.foregroundIoReserve then
    .error (.invalidBudget
      "foreground reserves must leave at least one background resource unit")
  else .ok budget

def backgroundCpu (budget : ResourceBudget) : ℕ := budget.cpu - budget.foregroundCpuReserve

def backgroundMemory (budget : ResourceBudget) : ℕ :=
  budget.memory - budget.foregroundMemoryReserve

def backgroundIo (budget : ResourceBudget) : ℕ := budget.io - budget.foregroundIoReserve

end ResourceBudget

/-- The semaphores of the scheduler. -/
inductive Resource where
  | lowSlots
  | nonHighSlots
  | backgroundSlots
  | cpu
  | memory
  | io
  deriving DecidableEq, Repr

/-- The units that a permit for the work holds. -/
def WorkKind.need (kind : WorkKind) : Resource → ℕ
  | .lowSlots => if kind.priority = .low then 1 else 0
  | .nonHighSlots => if kind.priority = .high then 0 else 1
  | .backgroundSlots => 1
  | .cpu => kind.resources.cpu
  | .memory => kind.resources.memory
  | .io => kind.resources.io

/-- The order in which an acquire takes them. -/
def WorkKind.order (kind : WorkKind) : List Resource :=
  match kind.priority with
  | .high => [.backgroundSlots, .cpu, .memory, .io]
  | .normal => [.nonHighSlots, .backgroundSlots, .cpu, .memory, .io]
  | .low => [.lowSlots, .nonHighSlots, .backgroundSlots, .cpu, .memory, .io]

/-- The number of permits that each semaphore starts with. -/
def ResourceBudget.initial (budget : ResourceBudget) : Resource → ℕ
  | .lowSlots => max (max (budget.maxBackgroundTasks / 2) 1 / 2) 1
  | .nonHighSlots => max (budget.maxBackgroundTasks / 2) 1
  | .backgroundSlots => budget.maxBackgroundTasks
  | .cpu => budget.backgroundCpu
  | .memory => budget.backgroundMemory
  | .io => budget.backgroundIo

inductive TaskPhase where
  /-- `acquire` has counted itself and has yet to take the first of these. -/
  | waiting (missing : List Resource)
  /-- `try_acquire` has yet to take the first of these. -/
  | trying (missing : List Resource)
  /-- `acquire` has admitted its permit and is still counted as waiting. -/
  | counted
  | live
  /-- The permit or the future is dropped and returns what it holds. -/
  | dropping
  deriving DecidableEq

structure PermitTask where
  kind : WorkKind
  phase : TaskPhase
  held : Resource → ℕ
  /-- The future was dropped while it waited. -/
  cancelled : Bool

/-- An acquire waits where the semaphore has to give it units. -/
def PermitTask.suspended (task : PermitTask) : Bool :=
  match task.phase with
  | .waiting (resource :: _) => 0 < task.kind.need resource
  | _ => false

structure SchedulerMetrics where
  active : ℕ
  queued : ℕ
  admittedTotal : ℕ
  rejectedTotal : ℕ
  peakActive : ℕ
  kindAdmitted : WorkKind → ℕ

def SchedulerMetrics.admitted (metrics : SchedulerMetrics) (kind : WorkKind) : SchedulerMetrics :=
  { metrics with
    active := metrics.active + 1
    admittedTotal := metrics.admittedTotal + 1
    peakActive := max metrics.peakActive (metrics.active + 1)
    kindAdmitted := Function.update metrics.kindAdmitted kind (metrics.kindAdmitted kind + 1) }

structure ResourceScheduler where
  budget : ResourceBudget
  available : Resource → ℕ
  tasks : List PermitTask
  metrics : SchedulerMetrics

inductive SchedulerEvent where
  | acquire (kind : WorkKind)
  | tryAcquire (kind : WorkKind)
  /-- The semaphore gives a waiting acquire some of the units that it asked for. -/
  | assign (index units : ℕ)
  /-- The task makes its next step. -/
  | advance (index : ℕ)
  | cancel (index : ℕ)
  | dropPermit (index : ℕ)
  /-- A dropped task returns its units of one semaphore. -/
  | release (index : ℕ) (resource : Resource)

namespace ResourceScheduler

def new (budget : ResourceBudget) : Except ResourceSchedulerError ResourceScheduler := do
  let budget ← budget.validate
  pure ⟨budget, budget.initial, [], ⟨0, 0, 0, 0, 0, fun _ => 0⟩⟩

def validateRequest (scheduler : ResourceScheduler) (kind : WorkKind) :
    Except ResourceSchedulerError Unit :=
  if scheduler.budget.backgroundCpu < kind.resources.cpu ∨
      scheduler.budget.backgroundMemory < kind.resources.memory ∨
      scheduler.budget.backgroundIo < kind.resources.io then
    .error (.requestExceedsBudget kind kind.resources)
  else .ok ()

variable (scheduler : ResourceScheduler)

def setTask (index : ℕ) (task : PermitTask) : ResourceScheduler :=
  { scheduler with tasks := scheduler.tasks.set index task }

/-- Takes units of a semaphore for a task. -/
def take (index : ℕ) (task : PermitTask) (resource : Resource) (units : ℕ) : ResourceScheduler :=
  { scheduler with
    available := Function.update scheduler.available resource (scheduler.available resource - units)
    tasks := scheduler.tasks.set index
      { task with held := Function.update task.held resource (task.held resource + units) } }

def advanceTask (index : ℕ) (task : PermitTask) : ResourceScheduler :=
  match task.phase with
  | .waiting (resource :: missing) =>
      if task.held resource = task.kind.need resource then
        scheduler.setTask index { task with phase := .waiting missing }
      else scheduler
  | .waiting [] =>
      { scheduler.setTask index { task with phase := .counted } with
        metrics := scheduler.metrics.admitted task.kind }
  | .counted =>
      { scheduler.setTask index { task with phase := .live } with
        metrics := { scheduler.metrics with queued := scheduler.metrics.queued - 1 } }
  | .trying (resource :: missing) =>
      if task.kind.need resource ≤ scheduler.available resource then
        scheduler.take index { task with phase := .trying missing } resource
          (task.kind.need resource)
      else
        { scheduler.setTask index { task with phase := .dropping } with
          metrics := { scheduler.metrics with
            rejectedTotal := scheduler.metrics.rejectedTotal + 1 } }
  | .trying [] =>
      { scheduler.setTask index { task with phase := .live } with
        metrics := scheduler.metrics.admitted task.kind }
  | .live | .dropping => scheduler

def assignTask (index units : ℕ) (task : PermitTask) : ResourceScheduler :=
  match task.phase with
  | .waiting (resource :: _) =>
      if units ≤ scheduler.available resource ∧
          task.held resource + units ≤ task.kind.need resource then
        scheduler.take index task resource units
      else scheduler
  | _ => scheduler

def step : SchedulerEvent → ResourceScheduler
  | .acquire kind =>
      match scheduler.validateRequest kind with
      | .error _ => scheduler
      | .ok () =>
          { scheduler with
            tasks := scheduler.tasks ++ [⟨kind, .waiting kind.order, fun _ => 0, false⟩]
            metrics := { scheduler.metrics with queued := scheduler.metrics.queued + 1 } }
  | .tryAcquire kind =>
      match scheduler.validateRequest kind with
      | .error _ => scheduler
      | .ok () =>
          { scheduler with
            tasks := scheduler.tasks ++ [⟨kind, .trying kind.order, fun _ => 0, false⟩] }
  | .assign index units =>
      match scheduler.tasks[index]? with
      | some task => scheduler.assignTask index units task
      | none => scheduler
  | .advance index =>
      match scheduler.tasks[index]? with
      | some task => scheduler.advanceTask index task
      | none => scheduler
  | .cancel index =>
      match scheduler.tasks[index]? with
      | some task =>
          if task.suspended then
            scheduler.setTask index { task with phase := .dropping, cancelled := true }
          else scheduler
      | none => scheduler
  | .dropPermit index =>
      match scheduler.tasks[index]? with
      | some task =>
          if task.phase = .live then
            { scheduler.setTask index { task with phase := .dropping } with
              metrics := { scheduler.metrics with active := scheduler.metrics.active - 1 } }
          else scheduler
      | none => scheduler
  | .release index resource =>
      match scheduler.tasks[index]? with
      | some task =>
          if task.phase = .dropping then
            { scheduler with
              available := Function.update scheduler.available resource
                (scheduler.available resource + task.held resource)
              tasks := scheduler.tasks.set index
                { task with held := Function.update task.held resource 0 } }
          else scheduler
      | none => scheduler

end ResourceScheduler

/-! ### Accounts -/

namespace PermitTask

/-- The call of `acquire` has not returned and was not cancelled. -/
def inAcquire (task : PermitTask) : Bool :=
  match task.phase with
  | .waiting _ | .counted => true
  | _ => false

/-- The permit exists. -/
def isLive (task : PermitTask) : Bool := task.phase = .counted ∨ task.phase = .live

/-- Nothing is left of the task. -/
def Gone (task : PermitTask) : Prop := task.phase = .dropping ∧ ∀ resource, task.held resource = 0

/-- A task holds what it needs of all semaphores that it has taken, and an acquire that was
cancelled does not wait. -/
def Holds (task : PermitTask) : Prop :=
  match task.phase with
  | .waiting missing => task.cancelled = false ∧
      ∀ resource ∉ missing, task.held resource = task.kind.need resource
  | .trying missing => missing.Nodup ∧ (∀ resource ∈ missing, task.held resource = 0) ∧
      ∀ resource ∉ missing, task.held resource = task.kind.need resource
  | .counted | .live => ∀ resource, task.held resource = task.kind.need resource
  | .dropping => True

end PermitTask

namespace ResourceScheduler

variable (scheduler : ResourceScheduler)

/-- The units of a semaphore that tasks hold. -/
def heldUnits (resource : Resource) : ℕ := (scheduler.tasks.map (·.held resource)).sum

def livePermits : ℕ := scheduler.tasks.countP PermitTask.isLive

def waitingAcquires : ℕ := scheduler.tasks.countP PermitTask.inAcquire

def cancelledAcquires : ℕ := scheduler.tasks.countP PermitTask.cancelled

/-- The books of the scheduler are right. -/
structure Accounted : Prop where
  cpu : scheduler.heldUnits .cpu ≤ scheduler.budget.backgroundCpu
  memory : scheduler.heldUnits .memory ≤ scheduler.budget.backgroundMemory
  io : scheduler.heldUnits .io ≤ scheduler.budget.backgroundIo
  live_le : scheduler.livePermits ≤ scheduler.budget.maxBackgroundTasks
  active : scheduler.metrics.active = scheduler.livePermits
  queued : scheduler.metrics.queued = scheduler.waitingAcquires
  restored : (∀ task ∈ scheduler.tasks, task.Gone) → scheduler.available = scheduler.budget.initial

/-- What every run preserves. A cancelled acquire stays in the metric of waiting ones. -/
structure Sound : Prop where
  holds : ∀ task ∈ scheduler.tasks, task.Holds
  conserved : ∀ resource, scheduler.available resource + scheduler.heldUnits resource =
    scheduler.budget.initial resource
  active : scheduler.metrics.active = scheduler.livePermits
  queued : scheduler.metrics.queued = scheduler.waitingAcquires + scheduler.cancelledAcquires

variable {scheduler}

theorem Sound.held_le (h : scheduler.Sound) (resource : Resource) :
    scheduler.heldUnits resource ≤ scheduler.budget.initial resource := by
  have hconserved := h.conserved resource
  omega

theorem Sound.live_le (h : scheduler.Sound) :
    scheduler.livePermits ≤ scheduler.budget.maxBackgroundTasks := by
  have hslots : scheduler.livePermits ≤ scheduler.heldUnits .backgroundSlots := by
    refine countP_le_sum fun task htask hlive => ?_
    have hholds := h.holds task htask
    unfold PermitTask.Holds at hholds
    rcases of_decide_eq_true hlive with hphase | hphase <;> rw [hphase] at hholds <;>
      exact (hholds .backgroundSlots).ge
  exact hslots.trans (h.held_le .backgroundSlots)

theorem Sound.restored (h : scheduler.Sound) (hgone : ∀ task ∈ scheduler.tasks, task.Gone) :
    scheduler.available = scheduler.budget.initial := by
  funext resource
  have hnone : scheduler.heldUnits resource = 0 := by
    refine List.sum_eq_zero fun units hunits => ?_
    obtain ⟨task, htask, rfl⟩ := List.mem_map.mp hunits
    exact (hgone task htask).2 resource
  have hconserved := h.conserved resource
  omega

/-- The books are right exactly as long as nobody has cancelled a waiting acquire. -/
theorem Sound.accounted_iff_uncancelled (h : scheduler.Sound) :
    scheduler.Accounted ↔ scheduler.cancelledAcquires = 0 := by
  have hqueued := h.queued
  constructor
  · intro haccounted
    have hwaiting := haccounted.queued
    omega
  · intro hnone
    exact ⟨h.held_le .cpu, h.held_le .memory, h.held_le .io, h.live_le, h.active, by omega,
      h.restored⟩

/-! ### Steps -/

section Steps

variable {index : ℕ} {old new : PermitTask} {available : Resource → ℕ} {metrics : SchedulerMetrics}

/-- One task changes, and the semaphores and counters change by as much. -/
theorem Sound.replace (h : scheduler.Sound) (htask : scheduler.tasks[index]? = some old)
    (hholds : new.Holds)
    (havailable : ∀ resource, available resource + new.held resource =
      scheduler.available resource + old.held resource)
    (hactive : metrics.active + old.isLive.toNat = scheduler.metrics.active + new.isLive.toNat)
    (hqueued : metrics.queued + old.inAcquire.toNat + old.cancelled.toNat =
      scheduler.metrics.queued + new.inAcquire.toNat + new.cancelled.toNat) :
    Sound ⟨scheduler.budget, available, scheduler.tasks.set index new, metrics⟩ := by
  refine ⟨fun task hmem => ?_, fun resource => ?_, ?_, ?_⟩
  · rcases List.mem_or_eq_of_mem_set hmem with hkept | rfl
    · exact h.holds task hkept
    · exact hholds
  · have hsum : ((scheduler.tasks.set index new).map (·.held resource)).sum + old.held resource =
        (scheduler.tasks.map (·.held resource)).sum + new.held resource := sum_map_set _ htask
    have hconserved := h.conserved resource
    have hsame := havailable resource
    unfold heldUnits at hconserved ⊢
    dsimp only
    omega
  · have hcount : (scheduler.tasks.set index new).countP PermitTask.isLive + old.isLive.toNat =
        scheduler.tasks.countP PermitTask.isLive + new.isLive.toNat := countP_set _ htask
    have hbefore := h.active
    unfold livePermits at hbefore ⊢
    dsimp only
    omega
  · have hwaiting : (scheduler.tasks.set index new).countP PermitTask.inAcquire +
        old.inAcquire.toNat = scheduler.tasks.countP PermitTask.inAcquire + new.inAcquire.toNat :=
      countP_set _ htask
    have hcancelled : (scheduler.tasks.set index new).countP PermitTask.cancelled +
        old.cancelled.toNat = scheduler.tasks.countP PermitTask.cancelled + new.cancelled.toNat :=
      countP_set _ htask
    have hbefore := h.queued
    unfold waitingAcquires cancelledAcquires at hbefore ⊢
    dsimp only
    omega

/-- A task joins that holds nothing yet. -/
theorem Sound.join (h : scheduler.Sound) (hholds : new.Holds) (hnone : ∀ resource, new.held resource = 0)
    (hactive : new.isLive = false) (hcancelled : new.cancelled = false)
    (hkept : metrics.active = scheduler.metrics.active)
    (hqueued : metrics.queued = scheduler.metrics.queued + new.inAcquire.toNat) :
    Sound ⟨scheduler.budget, scheduler.available, scheduler.tasks ++ [new], metrics⟩ := by
  have hbefore := h.queued
  unfold waitingAcquires cancelledAcquires at hbefore
  refine ⟨fun task hmem => ?_, fun resource => ?_, ?_, ?_⟩
  · rcases List.mem_append.mp hmem with hold | hnew
    · exact h.holds task hold
    · rw [List.mem_singleton.mp hnew]
      exact hholds
  · unfold heldUnits
    rw [List.map_append, List.sum_append, List.map_singleton, List.sum_singleton, hnone]
    exact h.conserved resource
  · unfold livePermits
    rw [List.countP_append, List.countP_singleton, hactive]
    exact hkept.trans h.active
  · unfold waitingAcquires cancelledAcquires
    rw [List.countP_append, List.countP_append, List.countP_singleton, List.countP_singleton,
      hcancelled]
    dsimp only
    cases hacquire : new.inAcquire <;> simp [hacquire] at hqueued ⊢ <;> omega

/-- The scheduler stays sound, and no cancelled acquire is added. -/
structure Follows (before after : ResourceScheduler) : Prop where
  sound : after.Sound
  cancelled : after.cancelledAcquires = before.cancelledAcquires

theorem Sound.follows_self (h : scheduler.Sound) : Follows scheduler scheduler := ⟨h, rfl⟩

theorem Sound.follows (h : scheduler.Sound) (htask : scheduler.tasks[index]? = some old)
    (hholds : new.Holds)
    (havailable : ∀ resource, available resource + new.held resource =
      scheduler.available resource + old.held resource)
    (hactive : metrics.active + old.isLive.toNat = scheduler.metrics.active + new.isLive.toNat)
    (hqueued : metrics.queued + old.inAcquire.toNat =
      scheduler.metrics.queued + new.inAcquire.toNat)
    (hcancelled : new.cancelled = old.cancelled) :
    Follows scheduler ⟨scheduler.budget, available, scheduler.tasks.set index new, metrics⟩ := by
  refine ⟨h.replace htask hholds havailable hactive (by rw [hcancelled]; omega), ?_⟩
  have hcount : (scheduler.tasks.set index new).countP PermitTask.cancelled + old.cancelled.toNat =
      scheduler.tasks.countP PermitTask.cancelled + new.cancelled.toNat := countP_set _ htask
  rw [hcancelled] at hcount
  exact Nat.add_right_cancel hcount

/-- Units move between a semaphore and a task. -/
theorem take_balanced {units : ℕ} {resource : Resource} {held : Resource → ℕ}
    (h : units ≤ scheduler.available resource) (other : Resource) :
    Function.update scheduler.available resource (scheduler.available resource - units) other +
        Function.update held resource (held resource + units) other =
      scheduler.available other + held other := by
  by_cases hsame : other = resource
  · subst hsame
    rw [Function.update_self, Function.update_self]
    omega
  · rw [Function.update_of_ne hsame, Function.update_of_ne hsame]

theorem release_balanced {resource : Resource} {held : Resource → ℕ} (other : Resource) :
    Function.update scheduler.available resource
          (scheduler.available resource + held resource) other +
        Function.update held resource 0 other = scheduler.available other + held other := by
  by_cases hsame : other = resource
  · subst hsame
    rw [Function.update_self, Function.update_self, Nat.add_zero]
  · rw [Function.update_of_ne hsame, Function.update_of_ne hsame]

/-- All that is not in the order of a kind is not needed. -/
theorem need_of_not_mem {kind : WorkKind} {resource : Resource} (h : resource ∉ kind.order) :
    0 = kind.need resource := by
  revert h
  cases kind <;> cases resource <;> decide

theorem Sound.metrics_pos (h : scheduler.Sound) (htask : scheduler.tasks[index]? = some old) :
    old.isLive.toNat ≤ scheduler.metrics.active ∧
      old.inAcquire.toNat ≤ scheduler.metrics.queued := by
  have hmem : old ∈ scheduler.tasks := List.mem_of_getElem? htask
  have hcount (kind : PermitTask → Bool) : (kind old).toNat ≤ scheduler.tasks.countP kind := by
    cases hkind : kind old with
    | false => exact Nat.zero_le _
    | true => exact List.countP_pos_iff.mpr ⟨old, hmem, hkind⟩
  have hlive := hcount PermitTask.isLive
  have hwaiting := hcount PermitTask.inAcquire
  have hactive := h.active
  have hqueued := h.queued
  unfold livePermits at hactive
  unfold waitingAcquires at hqueued
  omega

theorem Sound.advance (h : scheduler.Sound) (htask : scheduler.tasks[index]? = some old) :
    Follows scheduler (scheduler.advanceTask index old) := by
  obtain ⟨kind, phase, held, cancelled⟩ := old
  have hholds := h.holds _ (List.mem_of_getElem? htask)
  obtain ⟨hactive, hqueued⟩ := h.metrics_pos htask
  unfold advanceTask
  rcases phase with (_ | ⟨resource, missing⟩) | (_ | ⟨resource, missing⟩) | _ | _ | _
  · -- the acquire has all that it needs
    exact h.follows htask (fun resource => hholds.2 resource List.not_mem_nil) (fun _ => rfl) rfl
      rfl rfl
  · dsimp only
    split
    · rename_i hgranted
      refine h.follows htask ⟨hholds.1, fun other hother => ?_⟩ (fun _ => rfl) rfl rfl rfl
      by_cases hsame : other = resource
      · rw [hsame]
        exact hgranted
      · exact hholds.2 other fun hmem => (List.mem_cons.mp hmem).elim hsame hother
    · exact h.follows_self
  · exact h.follows htask (fun resource => hholds.2.2 resource List.not_mem_nil) (fun _ => rfl) rfl
      rfl rfl
  · dsimp only
    split
    · rename_i henough
      obtain ⟨hnodup, hnone, htaken⟩ := hholds
      have hfresh := (List.nodup_cons.mp hnodup).1
      refine h.follows htask ⟨hnodup.of_cons, fun other hother => ?_, fun other hother => ?_⟩
        (take_balanced henough) rfl rfl rfl
      · have hne : other ≠ resource := fun hsame => hfresh (hsame ▸ hother)
        exact (Function.update_of_ne hne ..).trans (hnone other (List.mem_cons_of_mem _ hother))
      · by_cases hsame : other = resource
        · rw [hsame]
          show Function.update held resource _ resource = _
          rw [Function.update_self, hnone resource (List.mem_cons_self ..), Nat.zero_add]
        · exact (Function.update_of_ne hsame ..).trans
            (htaken other fun hmem => (List.mem_cons.mp hmem).elim hsame hother)
    · exact h.follows htask trivial (fun _ => rfl) rfl rfl rfl
  · -- the acquire returns
    refine h.follows htask hholds (fun _ => rfl) rfl ?_ rfl
    exact Nat.sub_add_cancel hqueued
  · exact h.follows_self
  · exact h.follows_self

theorem Sound.assign (h : scheduler.Sound) (htask : scheduler.tasks[index]? = some old)
    (units : ℕ) : Follows scheduler (scheduler.assignTask index units old) := by
  obtain ⟨kind, phase, held, cancelled⟩ := old
  have hholds := h.holds _ (List.mem_of_getElem? htask)
  unfold assignTask
  rcases phase with (_ | ⟨resource, missing⟩) | missing | _ | _ | _
  · exact h.follows_self
  · dsimp only
    split
    · rename_i hasked
      refine h.follows htask ⟨hholds.1, fun other hother => ?_⟩ (take_balanced hasked.1) rfl rfl rfl
      have hne : other ≠ resource := fun hsame => hother (hsame ▸ List.mem_cons_self ..)
      exact (Function.update_of_ne hne ..).trans (hholds.2 other hother)
    · exact h.follows_self
  all_goals exact h.follows_self

theorem Sound.dropPermit (h : scheduler.Sound) (htask : scheduler.tasks[index]? = some old)
    (hlive : old.phase = .live) :
    Follows scheduler { scheduler.setTask index { old with phase := .dropping } with
      metrics := { scheduler.metrics with active := scheduler.metrics.active - 1 } } := by
  obtain ⟨kind, phase, held, cancelled⟩ := old
  cases hlive
  exact h.follows htask trivial (fun _ => rfl) (Nat.sub_add_cancel (h.metrics_pos htask).1) rfl rfl

theorem Sound.release (h : scheduler.Sound) (htask : scheduler.tasks[index]? = some old)
    (hdropping : old.phase = .dropping) (resource : Resource) :
    Follows scheduler { scheduler with
      available := Function.update scheduler.available resource
        (scheduler.available resource + old.held resource)
      tasks := scheduler.tasks.set index
        { old with held := Function.update old.held resource 0 } } := by
  obtain ⟨kind, phase, held, cancelled⟩ := old
  cases hdropping
  exact h.follows htask trivial release_balanced rfl rfl rfl

/-- A waiting acquire is dropped and stays in the metric of waiting ones. -/
theorem Sound.cancel (h : scheduler.Sound) (htask : scheduler.tasks[index]? = some old)
    (hsuspended : old.suspended) :
    (scheduler.setTask index { old with phase := .dropping, cancelled := true }).Sound := by
  have hholds := h.holds _ (List.mem_of_getElem? htask)
  obtain ⟨kind, phase, held, cancelled⟩ := old
  rcases phase with (_ | ⟨resource, missing⟩) | missing | _ | _ | _
  case waiting.cons =>
    obtain rfl : cancelled = false := hholds.1
    exact h.replace htask trivial (fun _ => rfl) rfl rfl
  all_goals cases hsuspended

theorem Sound.acquire (h : scheduler.Sound) (kind : WorkKind) :
    Follows scheduler { scheduler with
      tasks := scheduler.tasks ++ [⟨kind, .waiting kind.order, fun _ => 0, false⟩]
      metrics := { scheduler.metrics with queued := scheduler.metrics.queued + 1 } } :=
  ⟨h.join ⟨rfl, fun _ => need_of_not_mem⟩ (fun _ => rfl) rfl rfl rfl rfl, List.countP_append⟩

theorem Sound.tryAcquire (h : scheduler.Sound) (kind : WorkKind) :
    Follows scheduler { scheduler with
      tasks := scheduler.tasks ++ [⟨kind, .trying kind.order, fun _ => 0, false⟩] } := by
  have hnodup : kind.order.Nodup := by cases kind <;> decide
  exact ⟨h.join ⟨hnodup, fun _ _ => rfl, fun _ => need_of_not_mem⟩ (fun _ => rfl) rfl rfl rfl rfl,
    List.countP_append⟩

end Steps

/-- The event drops an acquire that waits. -/
def Cancels (scheduler : ResourceScheduler) (event : SchedulerEvent) : Prop :=
  ∃ index task, event = .cancel index ∧ scheduler.tasks[index]? = some task ∧ task.suspended

/-- A step follows the one before, unless it cancels a waiting acquire. -/
theorem Sound.step (h : scheduler.Sound) (event : SchedulerEvent) :
    Follows scheduler (scheduler.step event) ∨
      Cancels scheduler event ∧ (scheduler.step event).Sound := by
  cases event with
  | acquire kind =>
    left
    show Follows scheduler (match scheduler.validateRequest kind with | .error _ => _ | .ok () => _)
    split
    · exact h.follows_self
    · exact h.acquire kind
  | tryAcquire kind =>
    left
    show Follows scheduler (match scheduler.validateRequest kind with | .error _ => _ | .ok () => _)
    split
    · exact h.follows_self
    · exact h.tryAcquire kind
  | assign index units =>
    left
    cases htask : scheduler.tasks[index]? with
    | none => simpa only [ResourceScheduler.step, htask] using h.follows_self
    | some task => simpa only [ResourceScheduler.step, htask] using h.assign htask units
  | advance index =>
    left
    cases htask : scheduler.tasks[index]? with
    | none => simpa only [ResourceScheduler.step, htask] using h.follows_self
    | some task => simpa only [ResourceScheduler.step, htask] using h.advance htask
  | cancel index =>
    cases htask : scheduler.tasks[index]? with
    | none =>
      left
      simpa only [ResourceScheduler.step, htask] using h.follows_self
    | some task =>
      simp only [ResourceScheduler.step, htask]
      split
      · rename_i hsuspended
        exact .inr ⟨⟨index, task, rfl, htask, hsuspended⟩, h.cancel htask hsuspended⟩
      · exact .inl h.follows_self
  | dropPermit index =>
    left
    cases htask : scheduler.tasks[index]? with
    | none => simpa only [ResourceScheduler.step, htask] using h.follows_self
    | some task =>
      simp only [ResourceScheduler.step, htask]
      split
      · rename_i hlive
        exact h.dropPermit htask hlive
      · exact h.follows_self
  | release index resource =>
    left
    cases htask : scheduler.tasks[index]? with
    | none => simpa only [ResourceScheduler.step, htask] using h.follows_self
    | some task =>
      simp only [ResourceScheduler.step, htask]
      split
      · rename_i hdropping
        exact h.release htask hdropping resource
      · exact h.follows_self

theorem cancelledAcquires_pos {event : SchedulerEvent} (h : Cancels scheduler event) :
    0 < (scheduler.step event).cancelledAcquires := by
  obtain ⟨index, task, rfl, htask, hsuspended⟩ := h
  simp only [ResourceScheduler.step, htask, if_pos hsuspended]
  obtain ⟨hindex, -⟩ := List.getElem?_eq_some_iff.mp htask
  exact List.countP_pos_iff.mpr ⟨_, List.mem_set hindex _, rfl⟩

/-! ### Runs -/

section Run

variable {budget : ResourceBudget} {start : ResourceScheduler}

theorem sound_new (hnew : new budget = .ok start) : start.Sound ∧ start.cancelledAcquires = 0 := by
  unfold new at hnew
  cases hvalid : budget.validate with
  | error error =>
    rw [hvalid] at hnew
    cases hnew
  | ok valid =>
    rw [hvalid] at hnew
    cases hnew
    exact ⟨⟨nofun, fun _ => rfl, rfl, rfl⟩, rfl⟩

theorem Sound.run (h : start.Sound) (events : List SchedulerEvent) :
    (events.foldl ResourceScheduler.step start).Sound := by
  induction events generalizing start with
  | nil => exact h
  | cons event rest ih =>
    rcases h.step event with hfollows | ⟨-, hsound⟩
    · exact ih hfollows.sound
    · exact ih hsound

/-- While no waiting acquire is dropped, none is counted as cancelled. -/
theorem Sound.run_uncancelled (h : start.Sound) (hnone : start.cancelledAcquires = 0)
    (events : List SchedulerEvent)
    (hevents : ∀ before event, before ++ [event] <+: events →
      ¬Cancels (before.foldl ResourceScheduler.step start) event) :
    (events.foldl ResourceScheduler.step start).cancelledAcquires = 0 := by
  induction events using List.reverseRecOn with
  | nil => exact hnone
  | append_singleton before event ih =>
    have hbefore := ih fun earlier other hpart =>
      hevents earlier other (hpart.trans (List.prefix_append before [event]))
    rw [List.foldl_append, List.foldl_cons, List.foldl_nil]
    rcases (h.run before).step event with hfollows | ⟨hcancels, -⟩
    · exact hfollows.cancelled.trans hbefore
    · exact absurd hcancels (hevents before event (List.prefix_refl _))

/-- In a run of the scheduler the books are right after every step exactly when no step
drops an acquire that waits. -/
theorem accounted_iff (hnew : new budget = .ok start) (events : List SchedulerEvent) :
    (∀ before, before <+: events → (before.foldl ResourceScheduler.step start).Accounted) ↔
      ∀ before event, before ++ [event] <+: events →
        ¬Cancels (before.foldl ResourceScheduler.step start) event := by
  obtain ⟨hsound, hnone⟩ := sound_new hnew
  constructor
  · intro haccounted before event hpart hcancels
    have hafter := (hsound.run _).accounted_iff_uncancelled.mp (haccounted _ hpart)
    rw [List.foldl_append, List.foldl_cons, List.foldl_nil] at hafter
    exact (cancelledAcquires_pos hcancels).ne' hafter
  · intro hevents before hpart
    rw [(hsound.run before).accounted_iff_uncancelled]
    exact hsound.run_uncancelled hnone before fun earlier event hearlier =>
      hevents earlier event (hearlier.trans hpart)

end Run

/-! ### A dropped acquire -/

def schedulerStart : ResourceScheduler := ⟨.default, ResourceBudget.default.initial, [],
  ⟨0, 0, 0, 0, 0, fun _ => 0⟩⟩

/-- The only slot for compactions is taken, and a second compaction waits for it. -/
def waitingRun : List SchedulerEvent :=
  [.tryAcquire .compaction, .advance 0, .acquire .compaction]

theorem accounted_waiting :
    (waitingRun.foldl ResourceScheduler.step schedulerStart).Accounted := by
  refine (@accounted_iff .default schedulerStart rfl waitingRun).mpr (fun before event hpart hcancels => ?_) waitingRun
    (List.prefix_refl _)
  obtain ⟨index, task, rfl, -, -⟩ := hcancels
  have hmem : SchedulerEvent.cancel index ∈ waitingRun :=
    hpart.subset (List.mem_append_right _ (List.mem_singleton_self _))
  simp [waitingRun] at hmem

theorem not_accounted_cancelled : new .default = .ok schedulerStart ∧
    ¬((waitingRun ++ [SchedulerEvent.cancel 1]).foldl ResourceScheduler.step
      schedulerStart).Accounted := by
  refine ⟨rfl, fun h => ?_⟩
  have hqueued := h.queued
  revert hqueued
  decide

end ResourceScheduler

end Ketebe
