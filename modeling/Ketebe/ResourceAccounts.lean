import Ketebe.Lib.Tally
import Ketebe.ResourceGovernance

/-!
Accounts of permits and units over runs. Admissions, releases and changes of budgets may
come in any order. The usage of a project stays that of its live permits, and the units
of a window within the budget that admits them.
-/
namespace Ketebe

open Lib.FixedWindow (Window)
open Lib.Runs

/-- The units of one admission, with the start of the window that counts them. -/
structure Charge where
  projectId : String
  startedAt : ℕ
  units : ℕ
  deriving DecidableEq, Repr

/-- The units that were admitted in the window of a project that started at a time. -/
def unitsAdmitted (charges : List Charge) (projectId : String) (startedAt : ℕ) : ℕ :=
  ((charges.filter fun charge => charge.projectId = projectId ∧
    charge.startedAt = startedAt).map Charge.units).sum

theorem unitsAdmitted_eq_zero {charges : List Charge} {projectId : String} {startedAt : ℕ}
    (h : ∀ charge ∈ charges, charge.projectId = projectId → charge.startedAt ≠ startedAt) :
    unitsAdmitted charges projectId startedAt = 0 := by
  rw [unitsAdmitted, List.filter_eq_nil_iff.mpr]
  · rfl
  · intro charge hcharge hmatches
    exact h charge hcharge (of_decide_eq_true hmatches).1 (of_decide_eq_true hmatches).2

theorem unitsAdmitted_cons (charge : Charge) (charges : List Charge) (projectId : String)
    (startedAt : ℕ) : unitsAdmitted (charge :: charges) projectId startedAt =
      (if charge.projectId = projectId ∧ charge.startedAt = startedAt then charge.units else 0) +
        unitsAdmitted charges projectId startedAt := by
  unfold unitsAdmitted
  rw [List.filter_cons]
  by_cases hmatches : charge.projectId = projectId ∧ charge.startedAt = startedAt
  · rw [if_pos (decide_eq_true hmatches), if_pos hmatches, List.map_cons, List.sum_cons]
  · rw [if_neg (by rwa [decide_eq_true_iff]), if_neg hmatches, Nat.zero_add]

/-- A governor with the permits that are live and the units that were admitted since the
windows of their projects were last removed. -/
structure ResourceRun where
  governor : ResourceGovernor
  permits : List ResourcePermit
  charges : List Charge

inductive ResourceCall where
  | admission (scope : DataPlaneScope) (workClass : ResourceWorkClass) (units now : ℕ)
  | release (permit : ℕ)
  | drop (permit : ℕ)
  | setBudget (projectId : String) (budget : ProjectResourceBudget)
  | removeBudget (projectId : String)

namespace ResourceRun

variable (run : ResourceRun)

/-- The charge of an admission, read off the window behind it. -/
def chargesOf (admitted : ResourceGovernor) (projectId : String) (workClass : ResourceWorkClass)
    (units : ℕ) : List Charge :=
  if workClass = .ingestion ∧ (admitted.budgetFor projectId).ingestionThroughput.isSome then
    (admitted.throughput projectId).toList.map fun window => ⟨projectId, window.startedAt, units⟩
  else []

def step : ResourceCall → ResourceRun
  | .admission scope workClass units now =>
      match run.governor.admitAt scope workClass units now with
      | (.error _, refused) => { run with governor := refused }
      | (.ok permit, admitted) =>
          ⟨admitted, permit :: run.permits,
            chargesOf admitted permit.projectId workClass units ++ run.charges⟩
  | .release index =>
      match run.permits[index]? with
      | none => run
      | some permit =>
          { run with
            governor := run.governor.releasePermit permit
            permits := run.permits.eraseIdx index }
  | .drop index =>
      match run.permits[index]? with
      | none => run
      | some permit =>
          { run with
            governor := run.governor.dropPermit permit
            permits := run.permits.eraseIdx index }
  | .setBudget projectId budget => { run with governor := run.governor.setBudget projectId budget }
  | .removeBudget projectId =>
      { run with
        governor := run.governor.removeProjectBudget projectId
        charges := run.charges.filter (·.projectId ≠ projectId) }

/-- The live permits of a project and class. -/
def live (projectId : String) (workClass : ResourceWorkClass) : ℕ :=
  run.permits.countP fun permit => permit.projectId = projectId ∧ permit.workClass = workClass

def Busy (projectId : String) : Prop := ∃ permit ∈ run.permits, permit.projectId = projectId

/-- Ingestion for a project without live permits asks for no more units than its window
has left. -/
def Affordable : ResourceCall → Prop
  | .admission scope workClass units now => run.Busy scope.projectId.asStr ∨
      ∀ budget, run.governor.Charges scope.projectId.asStr workClass budget →
        units ≤ budget.units - run.governor.unitsUsed scope.projectId.asStr budget now
  | _ => True

/-- The usage is that of the live permits, the map holds the projects that have any, and
the windows count the units that were admitted in them. -/
structure Accounted : Prop where
  usage (projectId : String) (workClass : ResourceWorkClass) :
    (run.governor.usageOf projectId).current workClass = run.live projectId workClass
  entries (projectId : String) : (run.governor.usage projectId).isSome ↔ run.Busy projectId
  units {projectId : String} {window : ThroughputWindow} :
    run.governor.throughput projectId = some window →
      unitsAdmitted run.charges projectId window.startedAt = window.used

/-- What the accounts rest on. -/
structure Sound : Prop extends Accounted run where
  default : run.governor.defaultBudget.validate = .ok run.governor.defaultBudget
  policies {projectId : String} {budget : ProjectResourceBudget} :
    run.governor.policies[projectId]? = some budget → budget.validate = .ok budget
  unreleased : ∀ permit ∈ run.permits, permit.released = false
  charged : ∀ charge ∈ run.charges, ∃ window,
    run.governor.throughput charge.projectId = some window ∧ charge.startedAt ≤ window.startedAt

variable {run} {governor : ResourceGovernor} {permits : List ResourcePermit} {charges : List Charge}
variable {projectId : String} {workClass : ResourceWorkClass}

theorem Sound.budgetFor (h : Sound run) (projectId : String) :
    (run.governor.budgetFor projectId).validate = .ok (run.governor.budgetFor projectId) := by
  unfold ResourceGovernor.budgetFor
  cases hfound : run.governor.policies[projectId]? with
  | none => exact h.default
  | some budget => exact h.policies hfound

theorem concurrencyLimit_pos {budget : ProjectResourceBudget}
    (hvalid : budget.validate = .ok budget) (workClass : ResourceWorkClass) :
    0 < budget.concurrencyLimit workClass := by
  obtain ⟨⟨hqueries, hwrites, hingestion, hbackground⟩, -⟩ :=
    ProjectResourceBudget.validate_iff.mp hvalid
  cases workClass with
  | query => exact Nat.pos_of_ne_zero hqueries
  | write => exact Nat.pos_of_ne_zero hwrites
  | ingestion => exact Nat.pos_of_ne_zero hingestion
  | background => exact Nat.pos_of_ne_zero hbackground

theorem Sound.window_pos (h : Sound run) {budget : ThroughputBudget}
    (hcharges : run.governor.Charges projectId workClass budget) : 0 < budget.window := by
  obtain ⟨-, hthroughput⟩ := ProjectResourceBudget.validate_iff.mp (h.budgetFor projectId)
  have hzero := hthroughput budget hcharges.2
  exact Nat.pos_of_ne_zero (not_or.mp (of_decide_eq_false hzero)).2

theorem busy_iff : run.Busy projectId ↔ ∃ workClass, 0 < run.live projectId workClass := by
  unfold Busy live
  simp only [List.countP_pos_iff, decide_eq_true_eq]
  constructor
  · rintro ⟨permit, hmem, hproject⟩
    exact ⟨permit.workClass, permit, hmem, hproject, rfl⟩
  · rintro ⟨_, permit, hmem, hproject, -⟩
    exact ⟨permit, hmem, hproject⟩

theorem Sound.enter_self (h : Sound run) (hbusy : run.Busy projectId) :
    run.governor.enter projectId (run.governor.usageOf projectId) = run.governor := by
  obtain ⟨usage, hfound⟩ := Option.isSome_iff_exists.mp ((h.entries projectId).mpr hbusy)
  have hsame : run.governor.usageOf projectId = usage := by
    rw [ResourceGovernor.usageOf, hfound, Option.getD_some]
  rw [ResourceGovernor.enter, hsame, ← hfound, Function.update_eq_self]

theorem Sound.recordMetric (h : Sound ⟨governor, permits, charges⟩) (workClass : ResourceWorkClass)
    (allowed : Bool) : Sound ⟨governor.recordMetric workClass allowed, permits, charges⟩ := by
  cases allowed <;>
    exact ⟨⟨h.usage, h.entries, h.units⟩, h.default, h.policies, h.unreleased, h.charged⟩

/-- A permit that is granted is counted. -/
theorem Sound.grant (h : Sound ⟨governor, permits, charges⟩) (projectId : String)
    (workClass : ResourceWorkClass) :
    Sound ⟨governor.enter projectId ((governor.usageOf projectId).increment workClass),
      ⟨projectId, workClass, false⟩ :: permits, charges⟩ where
  usage queried kind := by
    have hbefore := h.usage queried kind
    unfold live at hbefore ⊢
    rw [List.countP_cons, ← hbefore, ResourceGovernor.usageOf, ResourceGovernor.enter]
    by_cases hproject : projectId = queried
    · subst hproject
      dsimp only
      rw [Function.update_self, Option.getD_some, ProjectUsage.current_increment]
      simp only [true_and, decide_eq_true_eq]
    · dsimp only
      rw [Function.update_of_ne (Ne.symm hproject), ResourceGovernor.usageOf]
      simp only [hproject, false_and, decide_false, Bool.false_eq_true, if_false, Nat.add_zero]
  entries queried := by
    have hbefore := h.entries queried
    unfold Busy at hbefore ⊢
    dsimp only at hbefore ⊢
    rw [List.exists_mem_cons_iff, ← hbefore, ResourceGovernor.enter]
    dsimp only
    by_cases hproject : projectId = queried
    · subst hproject
      rw [Function.update_self]
      exact iff_of_true rfl (Or.inl rfl)
    · rw [Function.update_of_ne (Ne.symm hproject)]
      exact ⟨Or.inr, fun hor => hor.resolve_left hproject⟩
  units := h.units
  default := h.default
  policies := h.policies
  unreleased := by
    intro permit hpermit
    rcases List.mem_cons.mp hpermit with rfl | hpermit
    · rfl
    · exact h.unreleased permit hpermit
  charged := h.charged

/-- The window that a call meets may be put in place of the last one. -/
theorem Sound.reset (h : Sound ⟨governor, permits, charges⟩) {budget : ThroughputBudget}
    (hwindow : 0 < budget.window) (projectId : String) (now : ℕ) :
    Sound ⟨governor.setWindow projectId (governor.windowAt projectId budget now), permits, charges⟩ := by
  have hfresh (hnone : ∀ charge ∈ charges, charge.projectId = projectId → charge.startedAt < now) :
      Sound ⟨governor.setWindow projectId ⟨now, 0⟩, permits, charges⟩ := by
    refine ⟨⟨h.usage, h.entries, ?_⟩, h.default, h.policies, h.unreleased, ?_⟩
    · intro queried window hfound
      by_cases hproject : queried = projectId
      · subst hproject
        rw [ResourceGovernor.throughput_setWindow, if_pos rfl] at hfound
        cases hfound
        apply unitsAdmitted_eq_zero
        exact fun charge hcharge hmine => (hnone charge hcharge hmine).ne
      · rw [ResourceGovernor.throughput_setWindow, if_neg hproject] at hfound
        exact h.units hfound
    · intro charge hcharge
      by_cases hproject : charge.projectId = projectId
      · refine ⟨⟨now, 0⟩, ?_, (hnone charge hcharge hproject).le⟩
        rw [hproject]
        exact (ResourceGovernor.throughput_setWindow _ _ _ _).trans (if_pos rfl)
      · obtain ⟨window, hfound, hle⟩ := h.charged charge hcharge
        refine ⟨window, ?_, hle⟩
        exact (ResourceGovernor.throughput_setWindow _ _ _ _).trans ((if_neg hproject).trans hfound)
  unfold ResourceGovernor.windowAt
  cases hfound : governor.throughput projectId with
  | none =>
    have hnone : ∀ charge ∈ charges, charge.projectId = projectId → charge.startedAt < now := by
      rintro charge hcharge rfl
      obtain ⟨window, hsome, -⟩ := h.charged charge hcharge
      cases hfound.symm.trans hsome
    rw [Option.getD_none, ite_self]
    exact hfresh hnone
  | some window =>
    dsimp only [Option.getD_some]
    by_cases hover : budget.window ≤ now - window.startedAt
    · rw [if_pos hover]
      apply hfresh
      rintro charge hcharge rfl
      obtain ⟨found, hsome, hle⟩ := h.charged charge hcharge
      cases hfound.symm.trans hsome
      omega
    · rw [if_neg hover, ResourceGovernor.setWindow, ← hfound, Function.update_eq_self]
      exact h

/-- Units that are counted in the window of a project are charged to it. -/
theorem Sound.charge (h : Sound ⟨governor, permits, charges⟩) {window : ThroughputWindow}
    (hfound : governor.throughput projectId = some window) (units : ℕ) :
    Sound ⟨governor.setWindow projectId { window with used := window.used + units }, permits,
      ⟨projectId, window.startedAt, units⟩ :: charges⟩ := by
  refine ⟨⟨h.usage, h.entries, ?_⟩, h.default, h.policies, h.unreleased, ?_⟩
  · intro queried found hupdated
    rw [ResourceGovernor.throughput_setWindow] at hupdated
    rw [unitsAdmitted_cons]
    by_cases hproject : queried = projectId
    · subst hproject
      rw [if_pos rfl] at hupdated
      cases hupdated
      rw [if_pos ⟨rfl, rfl⟩, h.units hfound, Nat.add_comm]
    · rw [if_neg hproject] at hupdated
      rw [if_neg fun hmatches => hproject hmatches.1.symm, h.units hupdated, Nat.zero_add]
  · intro charge hcharge
    by_cases hproject : charge.projectId = projectId
    · refine ⟨{ window with used := window.used + units }, ?_, ?_⟩
      · rw [hproject]
        exact Function.update_self _ _ _
      · rcases List.mem_cons.mp hcharge with rfl | hcharge
        · exact Nat.le_refl _
        · obtain ⟨found, hsome, hle⟩ := h.charged charge hcharge
          rw [hproject] at hsome
          cases hfound.symm.trans hsome
          exact hle
    · rcases List.mem_cons.mp hcharge with rfl | hcharge
      · exact absurd rfl hproject
      · obtain ⟨found, hsome, hle⟩ := h.charged charge hcharge
        exact ⟨found, (Function.update_of_ne hproject _ _).trans hsome, hle⟩

/-- A permit that is released is no longer counted. -/
theorem Sound.release (h : Sound ⟨governor, permits, charges⟩) {index : ℕ} {permit : ResourcePermit}
    (hpermit : permits[index]? = some permit) :
    Sound ⟨governor.release permit.projectId permit.workClass, permits.eraseIdx index, charges⟩ := by
  have hbusy : (ResourceRun.mk governor permits charges).Busy permit.projectId :=
    ⟨permit, List.mem_of_getElem? hpermit, rfl⟩
  obtain ⟨usage, hfound⟩ := Option.isSome_iff_exists.mp ((h.entries _).mpr hbusy)
  have hlive (queried : String) (kind : ResourceWorkClass) :
      live ⟨governor.release permit.projectId permit.workClass, permits.eraseIdx index, charges⟩
          queried kind =
        (governor.usageOf queried).current kind -
          if permit.projectId = queried ∧ permit.workClass = kind then 1 else 0 := by
    have hcount := Lib.Tally.countP_eraseIdx (fun permit =>
      decide (permit.projectId = queried ∧ permit.workClass = kind)) hpermit
    have hbefore := h.usage queried kind
    unfold live at hbefore ⊢
    dsimp only at hbefore ⊢
    rw [hbefore, ← hcount]
    split
    · rename_i hmatches
      rw [decide_eq_true hmatches]
      rfl
    · rename_i hnot
      rw [decide_eq_false hnot]
      rfl
  have husage (queried : String) (kind : ResourceWorkClass) :
      ((governor.release permit.projectId permit.workClass).usageOf queried).current kind =
        live ⟨governor.release permit.projectId permit.workClass, permits.eraseIdx index, charges⟩
          queried kind := by
    rw [hlive, ResourceGovernor.usageOf, governor.usage_release hfound, ResourceGovernor.usageOf]
    by_cases hproject : queried = permit.projectId
    · subst hproject
      have hdecrement := usage.current_decrement permit.workClass kind
      rw [if_pos rfl, hfound, Option.getD_some]
      simp only [true_and]
      rw [← hdecrement]
      by_cases hidle : (usage.decrement permit.workClass).idle
      · rw [if_pos hidle, Option.getD_none, ProjectUsage.current_default,
          ProjectUsage.idle_iff.mp hidle]
      · rw [if_neg hidle, Option.getD_some]
    · rw [if_neg hproject, if_neg fun hmatches => hproject hmatches.1.symm, Nat.sub_zero]
  obtain ⟨hinner, hdefault, hthroughput⟩ := governor.release_frame permit.projectId permit.workClass
  refine ⟨⟨husage, fun queried => ?_, ?_⟩, ?_, ?_, ?_, ?_⟩
  · rw [busy_iff]
    simp only [← husage]
    by_cases hproject : queried = permit.projectId
    · subst hproject
      rw [ResourceGovernor.usageOf, governor.usage_release hfound, if_pos rfl]
      by_cases hidle : (usage.decrement permit.workClass).idle
      · rw [if_pos hidle]
        refine iff_of_false (fun h => by cases h) ?_
        rintro ⟨kind, hpositive⟩
        exact absurd hpositive (by rw [Option.getD_none, ProjectUsage.current_default]; omega)
      · rw [if_neg hidle, Option.getD_some]
        refine iff_of_true rfl ?_
        rw [ProjectUsage.idle_iff, not_forall] at hidle
        obtain ⟨kind, hkind⟩ := hidle
        exact ⟨kind, Nat.pos_of_ne_zero hkind⟩
    · have hsame : (governor.release permit.projectId permit.workClass).usage queried =
          governor.usage queried := by rw [governor.usage_release hfound, if_neg hproject]
      rw [ResourceGovernor.usageOf, hsame]
      have hbefore := h.entries queried
      rw [busy_iff] at hbefore
      simp only [← h.usage] at hbefore
      exact hbefore
  · intro queried window hwindow
    dsimp only at hwindow
    rw [hthroughput] at hwindow
    exact h.units hwindow
  · dsimp only
    rw [hdefault]
    exact h.default
  · intro queried budget hbudget
    dsimp only at hbudget
    rw [hinner] at hbudget
    exact h.policies hbudget
  · exact fun other hother => h.unreleased other (List.mem_of_mem_eraseIdx hother)
  · intro charge hcharge
    dsimp only
    rw [hthroughput]
    exact h.charged charge hcharge

theorem Sound.setBudget (h : Sound ⟨governor, permits, charges⟩) (projectId : String)
    (budget : ProjectResourceBudget) :
    Sound ⟨governor.setBudget projectId budget, permits, charges⟩ := by
  unfold ResourceGovernor.setBudget InMemoryResourceGovernor.setProjectBudget
  by_cases hblank : trim projectId = ""
  · rw [if_pos hblank]
    exact h
  · rw [if_neg hblank]
    cases hvalid : budget.validate with
    | error error => exact h
    | ok validated =>
      have hsame := ProjectResourceBudget.validate_eq ⟨validated, hvalid⟩
      obtain rfl := Except.ok.inj (hvalid.symm.trans hsame)
      refine ⟨⟨h.usage, h.entries, h.units⟩, h.default, ?_, h.unreleased, h.charged⟩
      intro queried found hfound
      have hinserted : (governor.policies.insert projectId validated)[queried]? = some found :=
        hfound
      rw [Std.ExtTreeMap.getElem?_insert] at hinserted
      split at hinserted
      · cases hinserted
        exact hvalid
      · exact h.policies hinserted

theorem unitsAdmitted_filter_ne (charges : List Charge) {removed projectId : String}
    (hne : projectId ≠ removed) (startedAt : ℕ) :
    unitsAdmitted (charges.filter (·.projectId ≠ removed)) projectId startedAt =
      unitsAdmitted charges projectId startedAt := by
  unfold unitsAdmitted
  rw [List.filter_filter]
  congr 2
  apply List.filter_congr
  intro charge _
  by_cases hmatches : charge.projectId = projectId ∧ charge.startedAt = startedAt
  · rw [decide_eq_true hmatches, hmatches.1, decide_eq_true hne]
    rfl
  · rw [decide_eq_false hmatches, Bool.false_and]

theorem Sound.removeBudget (h : Sound ⟨governor, permits, charges⟩) (projectId : String) :
    Sound ⟨governor.removeProjectBudget projectId, permits,
      charges.filter (·.projectId ≠ projectId)⟩ := by
  have hthroughput (queried : String) : (governor.removeProjectBudget projectId).throughput queried =
      if queried = projectId then none else governor.throughput queried :=
    Function.update_apply _ _ _ _
  refine ⟨⟨h.usage, h.entries, ?_⟩, h.default, ?_, h.unreleased, ?_⟩
  · intro queried window hwindow
    rw [hthroughput] at hwindow
    split at hwindow
    · cases hwindow
    · rename_i hne
      rw [unitsAdmitted_filter_ne charges hne]
      exact h.units hwindow
  · intro queried budget hbudget
    have herased : (governor.policies.erase projectId)[queried]? = some budget := hbudget
    rw [Std.ExtTreeMap.getElem?_erase] at herased
    split at herased
    · cases herased
    · exact h.policies herased
  · intro charge hcharge
    obtain ⟨hmem, hne⟩ := List.mem_filter.mp hcharge
    obtain ⟨window, hfound, hle⟩ := h.charged charge hmem
    refine ⟨window, ?_, hle⟩
    exact (hthroughput _).trans ((if_neg (of_decide_eq_true hne)).trans hfound)

/-! ### Runs -/

theorem chargesOf_of_not {admitted : ResourceGovernor} {units : ℕ}
    (hnot : ∀ budget, ¬governor.Charges projectId workClass budget)
    (hbudgets : admitted.budgetFor = governor.budgetFor) :
    chargesOf admitted projectId workClass units = [] := by
  rw [chargesOf, if_neg]
  rintro ⟨hclass, hsome⟩
  obtain ⟨budget, hbudget⟩ := Option.isSome_iff_exists.mp hsome
  rw [hbudgets] at hbudget
  exact hnot budget ⟨hclass, hbudget⟩

theorem chargesOf_of_charges {admitted : ResourceGovernor} {units : ℕ} {budget : ThroughputBudget}
    {window : ThroughputWindow} (hcharges : governor.Charges projectId workClass budget)
    (hbudgets : admitted.budgetFor = governor.budgetFor)
    (hwindow : admitted.throughput projectId = some window) :
    chargesOf admitted projectId workClass units = [⟨projectId, window.startedAt, units⟩] := by
  rw [chargesOf, hbudgets, if_pos, hwindow]
  · rfl
  · exact ⟨hcharges.1, Option.isSome_iff_exists.mpr ⟨budget, hcharges.2⟩⟩

/-- An affordable admission keeps the accounts. -/
theorem Sound.admitted (h : Sound run) (scope : DataPlaneScope) (workClass : ResourceWorkClass)
    (units now : ℕ) (haffordable : run.Affordable (.admission scope workClass units now)) :
    Sound (run.step (.admission scope workClass units now)) := by
  obtain ⟨governor, permits, charges⟩ := run
  have hlimit := concurrencyLimit_pos (h.budgetFor scope.projectId.asStr) workClass
  have hlive := h.usage scope.projectId.asStr workClass
  unfold step
  dsimp only at hlimit ⊢
  obtain ⟨hfull, hrefused⟩ | ⟨-, throughput, window, hcharges, hwindow, hexceeded, hrefused⟩ |
      ⟨-, hnot, hgranted⟩ | ⟨-, throughput, window, hcharges, hwindow, -, hgranted⟩ :=
    governor.admitAt_cases scope workClass units now rfl rfl rfl
  · have hbusy : (ResourceRun.mk governor permits charges).Busy scope.projectId.asStr :=
      busy_iff.mpr ⟨workClass, by rw [← hlive]; exact hlimit.trans_le hfull⟩
    have hself := h.enter_self hbusy
    dsimp only at hself
    rw [hrefused, hself]
    exact h.recordMetric workClass false
  · have hbusy : (ResourceRun.mk governor permits charges).Busy scope.projectId.asStr := by
      rcases haffordable with hbusy | hfits
      · exact hbusy
      · have hle := hfits throughput hcharges
        rw [ResourceGovernor.unitsUsed, ← hwindow] at hle
        omega
    have hself := h.enter_self hbusy
    dsimp only at hself
    rw [hrefused, hself, hwindow]
    exact (h.reset (h.window_pos hcharges) _ now).recordMetric workClass false
  · rw [hgranted]
    dsimp only
    rw [chargesOf_of_not hnot (by rw [ResourceGovernor.budgetFor_recordMetric]; rfl)]
    exact (h.grant _ workClass).recordMetric workClass true
  · have hreset := h.reset (h.window_pos hcharges) scope.projectId.asStr now
    rw [← hwindow] at hreset
    have hcharged := hreset.charge
      ((ResourceGovernor.throughput_setWindow _ _ _ _).trans (if_pos rfl)) units
    rw [ResourceGovernor.setWindow_setWindow] at hcharged
    rw [hgranted]
    dsimp only
    rw [chargesOf_of_charges hcharges (by rw [ResourceGovernor.budgetFor_recordMetric]; rfl)
      (by
        rw [ResourceGovernor.throughput_recordMetric, ResourceGovernor.throughput_setWindow]
        exact if_pos rfl)]
    exact (hcharged.grant _ workClass).recordMetric workClass true

theorem Sound.step (h : Sound run) (call : ResourceCall) (haffordable : run.Affordable call) :
    Sound (run.step call) := by
  cases call with
  | admission scope workClass units now => exact h.admitted scope workClass units now haffordable
  | release index =>
    unfold ResourceRun.step
    dsimp only
    cases hpermit : run.permits[index]? with
    | none => exact h
    | some permit => exact h.release hpermit
  | drop index =>
    unfold ResourceRun.step
    dsimp only
    cases hpermit : run.permits[index]? with
    | none => exact h
    | some permit =>
      have hlive : ¬permit.released = true := by
        rw [h.unreleased permit (List.mem_of_getElem? hpermit)]
        exact Bool.false_ne_true
      dsimp only
      rw [ResourceGovernor.dropPermit, if_neg hlive]
      exact h.release hpermit
  | setBudget projectId budget => exact h.setBudget projectId budget
  | removeBudget projectId => exact h.removeBudget projectId

theorem sound_new {defaultBudget : ProjectResourceBudget}
    (hnew : ResourceGovernor.new defaultBudget = .ok governor) : Sound ⟨governor, [], []⟩ := by
  unfold ResourceGovernor.new at hnew
  cases hvalid : defaultBudget.validate with
  | error error =>
    rw [hvalid] at hnew
    cases hnew
  | ok validated =>
    have hsame := ProjectResourceBudget.validate_eq ⟨validated, hvalid⟩
    rw [hsame] at hnew
    cases hnew
    refine ⟨⟨?_, ?_, ?_⟩, hsame, ?_, ?_, ?_⟩
    · exact fun _ workClass => ProjectUsage.current_default workClass
    · exact fun _ => iff_of_false Bool.false_ne_true fun ⟨_, hmem, _⟩ => List.not_mem_nil hmem
    · exact fun hfound => absurd hfound (by nofun)
    · intro projectId budget hfound
      rw [Std.ExtTreeMap.getElem?_empty] at hfound
      cases hfound
    · exact fun _ hmem => absurd hmem List.not_mem_nil
    · exact fun _ hmem => absurd hmem List.not_mem_nil

/-- A refusal for a project without live permits leaves an entry behind. -/
theorem Sound.entry_of_unaffordable (h : Sound run) {scope : DataPlaneScope}
    {workClass : ResourceWorkClass} {units now : ℕ}
    (hnot : ¬run.Affordable (.admission scope workClass units now)) :
    ((run.step (.admission scope workClass units now)).governor.usage scope.projectId.asStr).isSome =
        true ∧
      ¬(run.step (.admission scope workClass units now)).Busy scope.projectId.asStr := by
  obtain ⟨hbusy, hexceeded⟩ := not_or.mp hnot
  obtain ⟨budget, hrest⟩ := not_forall.mp hexceeded
  obtain ⟨hcharges, hless⟩ := Classical.not_imp.mp hrest
  have hlimit := concurrencyLimit_pos (h.budgetFor scope.projectId.asStr) workClass
  have hidle := Nat.eq_zero_of_not_pos fun hlive => hbusy (busy_iff.mpr ⟨workClass, hlive⟩)
  rw [← h.usage] at hidle
  obtain ⟨hfull, -⟩ | ⟨-, throughput, window, -, -, -, hrefused⟩ | ⟨-, hnone, -⟩ |
      ⟨-, throughput, window, hsame, hwindow, hfits, -⟩ :=
    run.governor.admitAt_cases scope workClass units now rfl rfl rfl
  · omega
  · unfold ResourceRun.step
    dsimp only
    rw [hrefused]
    dsimp only
    rw [ResourceGovernor.usage_recordMetric, ResourceGovernor.setWindow,
      ResourceGovernor.usage_enter, if_pos rfl]
    exact ⟨rfl, hbusy⟩
  · exact absurd hcharges (hnone budget)
  · cases hcharges.2.symm.trans hsame.2
    rw [ResourceGovernor.unitsUsed, ← hwindow] at hless
    exact absurd hfits hless

theorem Sound.affordable_of_accounted (h : Sound run) {call : ResourceCall}
    (haccounted : (run.step call).Accounted) : run.Affordable call := by
  cases call with
  | admission scope workClass units now =>
    by_contra hnot
    obtain ⟨hentry, hbusy⟩ := h.entry_of_unaffordable hnot
    exact hbusy ((haccounted.entries _).mp hentry)
  | release index => trivial
  | drop index => trivial
  | setBudget projectId budget => trivial
  | removeBudget projectId => trivial

/-- An admission in a state. It needs room for a permit and for its units, and a refusal
changes neither the usage nor the units used. -/
structure Admits (run : ResourceRun) (scope : DataPlaneScope) (workClass : ResourceWorkClass)
    (units now : ℕ) : Prop where
  room : (run.governor.admitAt scope workClass units now).1.isOk = true →
    run.live scope.projectId.asStr workClass <
      (run.governor.budgetFor scope.projectId.asStr).concurrencyLimit workClass
  within {budget : ThroughputBudget} :
    (run.governor.admitAt scope workClass units now).1.isOk = true →
      run.governor.Charges scope.projectId.asStr workClass budget → 0 < units →
      ∃ window, (run.step (.admission scope workClass units now)).governor.throughput
          scope.projectId.asStr = some window ∧
        unitsAdmitted (run.step (.admission scope workClass units now)).charges
          scope.projectId.asStr window.startedAt ≤ budget.units
  refused : (run.governor.admitAt scope workClass units now).1.isOk = false →
    (run.step (.admission scope workClass units now)).permits = run.permits ∧
      (run.governor.admitAt scope workClass units now).2.usageOf = run.governor.usageOf ∧
      ∀ projectId time budget, now ≤ time →
        (run.governor.budgetFor projectId).ingestionThroughput = some budget →
        (run.governor.admitAt scope workClass units now).2.unitsUsed projectId budget time =
          run.governor.unitsUsed projectId budget time

theorem unitsUsed_setWindow_windowAt (governor : ResourceGovernor) (projectId : String)
    (budget : ThroughputBudget) {now time : ℕ} (hlater : now ≤ time) :
    (governor.setWindow projectId (governor.windowAt projectId budget now)).unitsUsed
        projectId budget time = governor.unitsUsed projectId budget time := by
  unfold ResourceGovernor.unitsUsed
  unfold ResourceGovernor.windowAt
  rw [ResourceGovernor.throughput_setWindow, if_pos rfl, Option.getD_some]
  dsimp only
  cases hfound : governor.throughput projectId with
  | none =>
    rw [Option.getD_none, Option.getD_none, ite_self, ite_self]
    split <;> rfl
  | some window =>
    rw [Option.getD_some, Option.getD_some]
    by_cases hover : budget.window ≤ now - window.startedAt
    · rw [if_pos hover, if_pos (by omega : budget.window ≤ time - window.startedAt)]
      split <;> rfl
    · rw [if_neg hover]

theorem Sound.admits (h : Sound run) (scope : DataPlaneScope) (workClass : ResourceWorkClass)
    (units now : ℕ) : Admits run scope workClass units now := by
  have hlive := h.usage scope.projectId.asStr workClass
  have hstep (error : ResourceGovernanceError) (refused : ResourceGovernor)
      (hrefused : run.governor.admitAt scope workClass units now = (.error error, refused)) :
      run.step (.admission scope workClass units now) = { run with governor := refused } := by
    unfold ResourceRun.step
    dsimp only
    rw [hrefused]
  obtain ⟨-, hrefused⟩ | ⟨-, throughput, window, hcharges, hwindow, -, hrefused⟩ |
      ⟨hroom, hnot, hgranted⟩ | ⟨hroom, throughput, window, hcharges, hwindow, hfits, hgranted⟩ :=
    run.governor.admitAt_cases scope workClass units now rfl rfl rfl
  · refine ⟨?_, ?_, fun _ => ⟨?_, ?_, ?_⟩⟩
    · rw [hrefused]
      exact fun hok => absurd hok Bool.false_ne_true
    · rw [hrefused]
      exact fun hok => absurd hok Bool.false_ne_true
    · rw [hstep _ _ hrefused]
    · rw [hrefused, ResourceGovernor.usageOf_recordMetric, ResourceGovernor.usageOf_enter_self]
    · intro projectId time budget _ _
      rw [hrefused, ResourceGovernor.unitsUsed_recordMetric]
      rfl
  · refine ⟨?_, ?_, fun _ => ⟨?_, ?_, ?_⟩⟩
    · rw [hrefused]
      exact fun hok => absurd hok Bool.false_ne_true
    · rw [hrefused]
      exact fun hok => absurd hok Bool.false_ne_true
    · rw [hstep _ _ hrefused]
    · rw [hrefused, ResourceGovernor.usageOf_recordMetric]
      exact run.governor.usageOf_enter_self _
    · intro projectId time budget hlater hbudget
      rw [hrefused, ResourceGovernor.unitsUsed_recordMetric]
      by_cases hproject : projectId = scope.projectId.asStr
      · subst hproject
        cases hcharges.2.symm.trans hbudget
        rw [hwindow]
        exact unitsUsed_setWindow_windowAt run.governor _ _ hlater
      · unfold ResourceGovernor.unitsUsed ResourceGovernor.windowAt
        rw [ResourceGovernor.throughput_setWindow, if_neg hproject]
        rfl
  · refine ⟨fun _ => ?_, ?_, ?_⟩
    · rw [← hlive]
      exact hroom
    · exact fun _ hcharges => absurd hcharges (hnot _)
    · rw [hgranted]
      exact fun hok => absurd hok.symm Bool.false_ne_true
  · refine ⟨fun _ => ?_, ?_, ?_⟩
    · rw [← hlive]
      exact hroom
    · intro budget _ hsame hpositive
      cases hcharges.2.symm.trans hsame.2
      have haffordable : run.Affordable (.admission scope workClass units now) := by
        refine Or.inr fun budget hbudget => ?_
        cases hcharges.2.symm.trans hbudget.2
        rw [ResourceGovernor.unitsUsed, ← hwindow]
        exact hfits
      have hfound : (run.step (.admission scope workClass units now)).governor.throughput
          scope.projectId.asStr = some { window with used := window.used + units } := by
        unfold ResourceRun.step
        dsimp only
        rw [hgranted]
        dsimp only
        rw [ResourceGovernor.throughput_recordMetric, ResourceGovernor.throughput_setWindow]
        exact if_pos rfl
      have hunits := (h.admitted scope workClass units now haffordable).units hfound
      refine ⟨_, hfound, hunits.trans_le ?_⟩
      dsimp only
      omega
    · rw [hgranted]
      exact fun hok => absurd hok.symm Bool.false_ne_true

end ResourceRun

/-- As long as no ingestion is refused for a project without live permits, the accounts
are right in every state, and a step keeps them right exactly then. -/
theorem resourceAccounts (defaultBudget : ProjectResourceBudget) (governor : ResourceGovernor)
    (hnew : ResourceGovernor.new defaultBudget = .ok governor) (run : ResourceRun)
    (hrun : Reaches ResourceRun.step ResourceRun.Affordable ⟨governor, [], []⟩ run) :
    run.Accounted ∧ (∀ scope workClass units now, run.Admits scope workClass units now) ∧
      ∀ call, (run.step call).Accounted ↔ run.Affordable call := by
  have hsound := hrun.invariant ResourceRun.Sound (ResourceRun.sound_new hnew)
    fun state call hstate haffordable => hstate.step call haffordable
  refine ⟨hsound.toAccounted, hsound.admits, fun call => ⟨hsound.affordable_of_accounted, ?_⟩⟩
  exact fun haffordable => (hsound.step call haffordable).toAccounted

/-- One unit in a second may be ingested. -/
def oneUnit : ProjectResourceBudget := ⟨32, 16, 8, 4, some ⟨1, 1000000000⟩⟩

def oneUnitGovernor : ResourceGovernor :=
  ⟨⟨∅⟩, oneUnit, fun _ => none, fun _ => none, fun _ => 0, fun _ => 0⟩

def documentsScope : DataPlaneScope := ⟨.defaultProject, ⟨"documents", by decide⟩⟩

theorem charges_oneUnit : oneUnitGovernor.Charges documentsScope.projectId.asStr .ingestion
    ⟨1, 1000000000⟩ := by
  refine ⟨rfl, ?_⟩
  rw [ResourceGovernor.budgetFor, oneUnitGovernor, Std.ExtTreeMap.getElem?_empty]
  rfl

theorem resourceAccounts_oneUnit :
    let run := (ResourceRun.mk oneUnitGovernor [] []).step (.admission documentsScope .ingestion 1 0)
    run.Accounted ∧ (∀ scope workClass units now, run.Admits scope workClass units now) ∧
      ∀ call, (run.step call).Accounted ↔ run.Affordable call := by
  refine resourceAccounts oneUnit oneUnitGovernor rfl _ ((Reaches.refl _).tail _ (Or.inr ?_))
  intro budget hcharges
  cases charges_oneUnit.2.symm.trans hcharges.2
  exact Nat.le_refl 1

/-- A request for two units leaves an entry for a project that holds no permit. -/
theorem not_resourceAccounts : ¬∀ (defaultBudget : ProjectResourceBudget)
    (governor : ResourceGovernor), ResourceGovernor.new defaultBudget = .ok governor →
      ∀ run, Reaches ResourceRun.step (fun _ _ => True) ⟨governor, [], []⟩ run →
        ∀ projectId, (run.governor.usage projectId).isSome ↔ run.Busy projectId := by
  intro hall
  have hrun : Reaches ResourceRun.step (fun _ _ => True) ⟨oneUnitGovernor, [], []⟩
      ((ResourceRun.mk oneUnitGovernor [] []).step (.admission documentsScope .ingestion 2 0)) :=
    (Reaches.refl _).tail _ trivial
  have hsound : ResourceRun.Sound ⟨oneUnitGovernor, [], []⟩ :=
    @ResourceRun.sound_new _ oneUnit rfl
  have hnot : ¬ResourceRun.Affordable ⟨oneUnitGovernor, [], []⟩
      (.admission documentsScope .ingestion 2 0) := by
    rintro (⟨permit, hmem, -⟩ | hfits)
    · cases hmem
    · exact absurd (hfits _ charges_oneUnit) (by decide)
  obtain ⟨hentry, hbusy⟩ := hsound.entry_of_unaffordable hnot
  exact hbusy ((hall oneUnit oneUnitGovernor rfl _ hrun documentsScope.projectId.asStr).mp hentry)

end Ketebe
