import Ketebe.Governance
import Ketebe.Lib.FixedWindow
import Ketebe.Lib.Runs
import Ketebe.Scope

/-!
Admission of concurrent work. Each project may hold so many permits of each class, and
the units that it ingests are counted in a window of its own. The usage of a project is
that of its live permits, and the map of usages holds the projects that have any. A
refusal for want of units leaves an entry behind for a project that has none.
-/
namespace Ketebe

open Lib.FixedWindow (Window)

def ProjectResourceBudget.concurrencyLimit (budget : ProjectResourceBudget) :
    ResourceWorkClass → ℕ
  | .query => budget.maxConcurrentQueries
  | .write => budget.maxConcurrentWrites
  | .ingestion => budget.maxConcurrentIngestion
  | .background => budget.maxConcurrentBackground

abbrev ThroughputWindow := Window

structure ProjectUsage where
  queries : ℕ
  writes : ℕ
  ingestion : ℕ
  background : ℕ
  deriving DecidableEq, Repr

namespace ProjectUsage

def default : ProjectUsage := ⟨0, 0, 0, 0⟩

def current (usage : ProjectUsage) : ResourceWorkClass → ℕ
  | .query => usage.queries
  | .write => usage.writes
  | .ingestion => usage.ingestion
  | .background => usage.background

def increment (usage : ProjectUsage) : ResourceWorkClass → ProjectUsage
  | .query => { usage with queries := usage.queries + 1 }
  | .write => { usage with writes := usage.writes + 1 }
  | .ingestion => { usage with ingestion := usage.ingestion + 1 }
  | .background => { usage with background := usage.background + 1 }

def decrement (usage : ProjectUsage) : ResourceWorkClass → ProjectUsage
  | .query => { usage with queries := usage.queries - 1 }
  | .write => { usage with writes := usage.writes - 1 }
  | .ingestion => { usage with ingestion := usage.ingestion - 1 }
  | .background => { usage with background := usage.background - 1 }

def idle (usage : ProjectUsage) : Bool :=
  usage.queries = 0 ∧ usage.writes = 0 ∧ usage.ingestion = 0 ∧ usage.background = 0

variable {usage other : ProjectUsage} {workClass : ResourceWorkClass}

theorem ext_current (h : ∀ workClass, usage.current workClass = other.current workClass) :
    usage = other := by
  cases usage
  cases other
  rw [ProjectUsage.mk.injEq]
  exact ⟨h .query, h .write, h .ingestion, h .background⟩

theorem current_default (workClass : ResourceWorkClass) : default.current workClass = 0 := by
  cases workClass <;> rfl

theorem current_increment (usage : ProjectUsage) (workClass queried : ResourceWorkClass) :
    (usage.increment workClass).current queried =
      usage.current queried + if workClass = queried then 1 else 0 := by
  cases workClass <;> cases queried <;> rfl

theorem current_decrement (usage : ProjectUsage) (workClass queried : ResourceWorkClass) :
    (usage.decrement workClass).current queried =
      usage.current queried - if workClass = queried then 1 else 0 := by
  cases workClass <;> cases queried <;> rfl

theorem idle_iff : usage.idle = true ↔ ∀ workClass, usage.current workClass = 0 := by
  rw [idle, decide_eq_true_iff]
  constructor
  · rintro ⟨hqueries, hwrites, hingestion, hbackground⟩ workClass
    cases workClass <;> assumption
  · intro h
    exact ⟨h .query, h .write, h .ingestion, h .background⟩

end ProjectUsage

structure ResourcePermit where
  projectId : String
  workClass : ResourceWorkClass
  released : Bool
  deriving DecidableEq, Repr

/-- The budgets in force with what the projects use, and the counted decisions. -/
structure ResourceGovernor extends InMemoryResourceGovernor where
  defaultBudget : ProjectResourceBudget
  usage : String → Option ProjectUsage
  throughput : String → Option ThroughputWindow
  allowed : ResourceWorkClass → ℕ
  denied : ResourceWorkClass → ℕ

namespace ResourceGovernor

variable (governor : ResourceGovernor)

def new (defaultBudget : ProjectResourceBudget) :
    Except ResourceGovernanceError ResourceGovernor := do
  let defaultBudget ← defaultBudget.validate
  pure ⟨⟨∅⟩, defaultBudget, fun _ => none, fun _ => none, fun _ => 0, fun _ => 0⟩

def setBudget (projectId : String) (budget : ProjectResourceBudget) : ResourceGovernor :=
  match governor.setProjectBudget projectId budget with
  | .ok inner => { governor with toInMemoryResourceGovernor := inner }
  | .error _ => governor

def removeProjectBudget (projectId : String) : ResourceGovernor :=
  { governor with
    policies := governor.policies.erase projectId
    throughput := Function.update governor.throughput projectId none }

def budgetFor (projectId : String) : ProjectResourceBudget :=
  governor.policies[projectId]?.getD governor.defaultBudget

def recordMetric (workClass : ResourceWorkClass) (allowed : Bool) : ResourceGovernor :=
  if allowed then
    { governor with
      allowed := Function.update governor.allowed workClass (governor.allowed workClass + 1) }
  else
    { governor with
      denied := Function.update governor.denied workClass (governor.denied workClass + 1) }

def enter (projectId : String) (usage : ProjectUsage) : ResourceGovernor :=
  { governor with usage := Function.update governor.usage projectId (some usage) }

def setWindow (projectId : String) (window : ThroughputWindow) : ResourceGovernor :=
  { governor with throughput := Function.update governor.throughput projectId (some window) }

/-- The window that units fall into; a new one starts when the last one is over. -/
def windowAt (projectId : String) (budget : ThroughputBudget) (now : ℕ) : ThroughputWindow :=
  let state := (governor.throughput projectId).getD ⟨now, 0⟩
  if budget.window ≤ now - state.startedAt then ⟨now, 0⟩ else state

def admitIngestionUnits (projectId : String) (workClass : ResourceWorkClass) (units : ℕ)
    (budget : ThroughputBudget) (now : ℕ) : Except ResourceGovernanceError Unit × ResourceGovernor :=
  let state := governor.windowAt projectId budget now
  let resetAfter := budget.window - (now - state.startedAt)
  if budget.units - state.used < units then
    (.error (.throughputExceeded workClass budget.units resetAfter),
      (governor.setWindow projectId state).recordMetric workClass false)
  else (.ok (), governor.setWindow projectId { state with used := state.used + units })

/-- The units are charged to ingestion only. -/
def chargeUnits (projectId : String) (workClass : ResourceWorkClass) (units now : ℕ) :
    Option ThroughputBudget → Except ResourceGovernanceError Unit × ResourceGovernor
  | some throughput =>
      if workClass = .ingestion then
        governor.admitIngestionUnits projectId workClass units throughput now
      else (.ok (), governor)
  | none => (.ok (), governor)

/-- `admit_at` of the source. A refusal comes after the usage has got an entry. -/
def admitAt (scope : DataPlaneScope) (workClass : ResourceWorkClass) (units now : ℕ) :
    Except ResourceGovernanceError ResourcePermit × ResourceGovernor :=
  let projectId := scope.projectId.asStr
  let budget := governor.budgetFor projectId
  let limit := budget.concurrencyLimit workClass
  let state := (governor.usage projectId).getD .default
  let entered := governor.enter projectId state
  if limit ≤ state.current workClass then
    (.error (.concurrencyExceeded workClass limit 100000000), entered.recordMetric workClass false)
  else
    match entered.chargeUnits projectId workClass units now budget.ingestionThroughput with
    | (.error error, refused) => (.error error, refused)
    | (.ok (), charged) =>
        (.ok ⟨projectId, workClass, false⟩,
          (charged.enter projectId (state.increment workClass)).recordMetric workClass true)

def release (projectId : String) (workClass : ResourceWorkClass) : ResourceGovernor :=
  match governor.usage projectId with
  | none => governor
  | some state =>
      let state := state.decrement workClass
      if state.idle then
        { governor with usage := Function.update governor.usage projectId none }
      else governor.enter projectId state

/-- A permit that goes out of scope is released, unless it has been. -/
def dropPermit (permit : ResourcePermit) : ResourceGovernor :=
  if permit.released then governor else governor.release permit.projectId permit.workClass

def releasePermit (permit : ResourcePermit) : ResourceGovernor :=
  (governor.release permit.projectId permit.workClass).dropPermit { permit with released := true }

/-! ### What an admission does -/

section Fields

variable (projectId : String) (workClass : ResourceWorkClass) (allowed : Bool)

theorem usage_recordMetric : (governor.recordMetric workClass allowed).usage = governor.usage := by
  cases allowed <;> rfl

theorem throughput_recordMetric :
    (governor.recordMetric workClass allowed).throughput = governor.throughput := by
  cases allowed <;> rfl

theorem budgetFor_recordMetric :
    (governor.recordMetric workClass allowed).budgetFor = governor.budgetFor := by
  cases allowed <;> rfl

theorem usage_enter (usage : ProjectUsage) (queried : String) :
    (governor.enter projectId usage).usage queried =
      if queried = projectId then some usage else governor.usage queried :=
  Function.update_apply _ _ _ _

theorem throughput_setWindow (window : ThroughputWindow) (queried : String) :
    (governor.setWindow projectId window).throughput queried =
      if queried = projectId then some window else governor.throughput queried :=
  Function.update_apply _ _ _ _

theorem enter_enter (usage other : ProjectUsage) :
    (governor.enter projectId usage).enter projectId other = governor.enter projectId other := by
  unfold enter
  rw [Function.update_idem]

theorem setWindow_setWindow (window other : ThroughputWindow) :
    (governor.setWindow projectId window).setWindow projectId other =
      governor.setWindow projectId other := by
  unfold setWindow
  rw [Function.update_idem]

theorem enter_setWindow (usage : ProjectUsage) (window : ThroughputWindow) :
    (governor.setWindow projectId window).enter projectId usage =
      (governor.enter projectId usage).setWindow projectId window := rfl

end Fields

/-- The usage of a project, which is idle without an entry. -/
def usageOf (projectId : String) : ProjectUsage := (governor.usage projectId).getD .default

theorem usageOf_enter (projectId : String) (usage : ProjectUsage) (queried : String) :
    (governor.enter projectId usage).usageOf queried =
      if queried = projectId then usage else governor.usageOf queried := by
  rw [usageOf, usage_enter]
  split <;> rfl

theorem usageOf_enter_self (projectId : String) :
    (governor.enter projectId (governor.usageOf projectId)).usageOf = governor.usageOf := by
  funext queried
  rw [usageOf_enter]
  split
  · rename_i hproject
    rw [hproject]
  · rfl

theorem usageOf_recordMetric (workClass : ResourceWorkClass) (allowed : Bool) :
    (governor.recordMetric workClass allowed).usageOf = governor.usageOf := by
  funext queried
  rw [usageOf, usage_recordMetric, usageOf]

/-- A release takes one off the usage, and the entry goes with the last permit. -/
theorem usage_release {projectId : String} {usage : ProjectUsage}
    (hfound : governor.usage projectId = some usage) (workClass : ResourceWorkClass)
    (queried : String) : (governor.release projectId workClass).usage queried =
      if queried = projectId then
        if (usage.decrement workClass).idle then none else some (usage.decrement workClass)
      else governor.usage queried := by
  rw [release, hfound]
  dsimp only
  by_cases hidle : (usage.decrement workClass).idle
  · rw [if_pos hidle, if_pos hidle]
    exact Function.update_apply _ _ _ _
  · rw [if_neg hidle, if_neg hidle]
    exact Function.update_apply _ _ _ _

theorem release_frame (projectId : String) (workClass : ResourceWorkClass) :
    (governor.release projectId workClass).toInMemoryResourceGovernor =
        governor.toInMemoryResourceGovernor ∧
      (governor.release projectId workClass).defaultBudget = governor.defaultBudget ∧
      (governor.release projectId workClass).throughput = governor.throughput := by
  unfold release
  split
  · exact ⟨rfl, rfl, rfl⟩
  · dsimp only
    split <;> exact ⟨rfl, rfl, rfl⟩

/-- The units that a budget counts at a time: those of the window, unless it is over. -/
def unitsUsed (projectId : String) (budget : ThroughputBudget) (now : ℕ) : ℕ :=
  (governor.windowAt projectId budget now).used

theorem unitsUsed_recordMetric (workClass : ResourceWorkClass) (allowed : Bool) :
    (governor.recordMetric workClass allowed).unitsUsed = governor.unitsUsed := by
  funext projectId budget now
  rw [unitsUsed, windowAt, throughput_recordMetric, unitsUsed, windowAt]

section Admission

variable {governor : ResourceGovernor} {scope : DataPlaneScope} {workClass : ResourceWorkClass}
variable {units now : ℕ}

/-- The class is charged units by a budget of its project. -/
def Charges (governor : ResourceGovernor) (projectId : String) (workClass : ResourceWorkClass)
    (budget : ThroughputBudget) : Prop :=
  workClass = .ingestion ∧ (governor.budgetFor projectId).ingestionThroughput = some budget

theorem chargeUnits_of_charges {projectId : String} {throughput : ThroughputBudget}
    (hcharges : governor.Charges projectId workClass throughput) (entered : ResourceGovernor) :
    entered.chargeUnits projectId workClass units now
        (governor.budgetFor projectId).ingestionThroughput =
      entered.admitIngestionUnits projectId workClass units throughput now := by
  rw [hcharges.2, chargeUnits, if_pos hcharges.1]

theorem chargeUnits_of_not {projectId : String}
    (hnot : ∀ throughput, ¬governor.Charges projectId workClass throughput)
    (entered : ResourceGovernor) : entered.chargeUnits projectId workClass units now
      (governor.budgetFor projectId).ingestionThroughput = (.ok (), entered) := by
  cases hthroughput : (governor.budgetFor projectId).ingestionThroughput with
  | none => rfl
  | some throughput =>
    rw [chargeUnits, if_neg]
    intro hclass
    exact hnot throughput ⟨hclass, hthroughput⟩

/-- An admission is refused for want of a permit or of units, or it is granted, and only
if it is charged units it counts them in the window. -/
theorem admitAt_cases (governor : ResourceGovernor) (scope : DataPlaneScope)
    (workClass : ResourceWorkClass) (units now : ℕ) {projectId : String} {usage : ProjectUsage}
    {limit : ℕ} (hproject : projectId = scope.projectId.asStr)
    (husage : usage = governor.usageOf projectId)
    (hlimit : limit = (governor.budgetFor projectId).concurrencyLimit workClass) :
    (limit ≤ usage.current workClass ∧ governor.admitAt scope workClass units now =
      (.error (.concurrencyExceeded workClass limit 100000000),
        (governor.enter projectId usage).recordMetric workClass false)) ∨
    (usage.current workClass < limit ∧ ∃ throughput window,
      governor.Charges projectId workClass throughput ∧
      window = governor.windowAt projectId throughput now ∧ throughput.units - window.used < units ∧
      governor.admitAt scope workClass units now =
        (.error (.throughputExceeded workClass throughput.units
            (throughput.window - (now - window.startedAt))),
          ((governor.enter projectId usage).setWindow projectId window).recordMetric
            workClass false)) ∨
    (usage.current workClass < limit ∧ (∀ throughput, ¬governor.Charges projectId workClass throughput) ∧
      governor.admitAt scope workClass units now = (.ok ⟨projectId, workClass, false⟩,
        (governor.enter projectId (usage.increment workClass)).recordMetric workClass true)) ∨
    usage.current workClass < limit ∧ ∃ throughput window,
      governor.Charges projectId workClass throughput ∧
      window = governor.windowAt projectId throughput now ∧ units ≤ throughput.units - window.used ∧
      governor.admitAt scope workClass units now = (.ok ⟨projectId, workClass, false⟩,
        ((governor.enter projectId (usage.increment workClass)).setWindow projectId
          { window with used := window.used + units }).recordMetric workClass true) := by
  subst hproject husage hlimit
  unfold admitAt
  dsimp only
  by_cases hfull : (governor.budgetFor scope.projectId.asStr).concurrencyLimit workClass ≤
      (governor.usageOf scope.projectId.asStr).current workClass
  · left
    exact ⟨hfull, if_pos hfull⟩
  · right
    have hroom := Nat.not_le.mp hfull
    by_cases hcharges : ∃ throughput, governor.Charges scope.projectId.asStr workClass throughput
    · obtain ⟨throughput, hcharges⟩ := hcharges
      rw [chargeUnits_of_charges hcharges]
      unfold admitIngestionUnits
      dsimp only
      by_cases hexceeded : throughput.units -
          (governor.windowAt scope.projectId.asStr throughput now).used < units
      · left
        refine ⟨hroom, throughput, _, hcharges, rfl, hexceeded, ?_⟩
        refine (if_neg hfull).trans ?_
        erw [if_pos hexceeded]
        rfl
      · right
        right
        refine ⟨hroom, throughput, _, hcharges, rfl, Nat.not_lt.mp hexceeded, ?_⟩
        refine (if_neg hfull).trans ?_
        erw [if_neg hexceeded]
        dsimp only
        rw [enter_setWindow, enter_enter]
        rfl
    · right
      left
      have hnot := not_exists.mp hcharges
      refine ⟨hroom, hnot, ?_⟩
      rw [chargeUnits_of_not hnot]
      refine (if_neg hfull).trans ?_
      dsimp only
      rw [enter_enter]
      rfl

end Admission

end ResourceGovernor

end Ketebe
