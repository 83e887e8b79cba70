import Ketebe.RateWindows
import Ketebe.ResourceGovernance

/-!
Rates that an organization constrains. Fewer requests in a longer window look stricter,
but the windows of two limits start at different calls: requests at both sides of a
boundary of the longer window may fall into one window of the organization.
-/
namespace Ketebe

open Lib.FixedWindow

/-! ### Requests -/

namespace AdmissionService

variable {service : AdmissionService} {key : WindowKey} {limit : RateLimit}

/-- A limiter of a project and class that no call has met. -/
def Limits (service : AdmissionService) (key : WindowKey) (limit : Option RateLimit) : Prop :=
  service.limitOf key = limit ∧ service.windows key = none

/-- Requests at these times are all admitted. -/
def AdmitsTimes (service : AdmissionService) (key : WindowKey) (times : List ℕ) : Prop :=
  ∀ entry ∈ service.answers (times.map (⟨key.1, key.2, ·⟩)), entry.2.isOk = true

theorem ownCalls_times (key : WindowKey) (times : List ℕ) :
    ownCalls key (times.map (⟨key.1, key.2, ·⟩)) = times.map (⟨·, 1⟩) := by
  rw [ownCalls, List.filter_eq_self.mpr, List.map_map]
  · rfl
  · intro call hcall
    obtain ⟨time, -, rfl⟩ := List.mem_map.mp hcall
    exact decide_eq_true rfl

theorem answers_fst (service : AdmissionService) (calls : List AdmissionCall) :
    (service.answers calls).map Prod.fst = calls := by
  induction calls generalizing service with
  | nil => rfl
  | cons call rest ih => rw [answers, List.map_cons, ih]

theorem admitsTimes_iff (hlimits : service.Limits key (some limit)) (times : List ℕ) :
    service.AdmitsTimes key times ↔ limit.fixed.AdmitsAll (times.map (⟨·, 1⟩)) := by
  obtain ⟨hlimit, hfresh⟩ := hlimits
  set calls : List AdmissionCall := times.map (⟨key.1, key.2, ·⟩) with hcalls
  have hown : (service.answers calls).filter (·.1.concerns key) = service.answers calls := by
    rw [List.filter_eq_self]
    intro entry hentry
    have hmem := List.mem_map_of_mem (f := Prod.fst) hentry
    rw [answers_fst, hcalls] at hmem
    obtain ⟨time, -, htime⟩ := List.mem_map.mp hmem
    rw [← htime]
    exact decide_eq_true rfl
  have hanswers := answers_own calls hlimit
  have hopen : service.openWindow key = none := by rw [openWindow, hfresh, Option.map_none]
  rw [hown, hopen, hcalls, ownCalls_times] at hanswers
  have hones : ∀ entry ∈ limit.fixed.entries none (times.map (⟨·, 1⟩)), entry.1.weight = 1 := by
    intro entry hentry
    have hmem := List.mem_map_of_mem (f := Prod.fst) hentry
    rw [Limit.entries_fst] at hmem
    obtain ⟨time, -, htime⟩ := List.mem_map.mp hmem
    rw [← htime]
  calc service.AdmitsTimes key times
      ↔ ∀ answer ∈ (service.answers calls).map fun entry => (entry.1.now, entry.2),
          answer.2.isOk = true := by rw [List.forall_mem_map, AdmitsTimes]
    _ ↔ ∀ entry ∈ limit.fixed.entries none (times.map (⟨·, 1⟩)),
          (limit.answerIn entry).isOk = true := by rw [hcalls, hanswers, List.forall_mem_map]
    _ ↔ limit.fixed.AdmitsAll (times.map (⟨·, 1⟩)) := by
      refine forall₂_congr fun entry hentry => ?_
      rw [isOk_answerIn limit (hones entry hentry)]

end AdmissionService

/-- When all requests that the constrained limit admits are admitted by the organization's
limit alone, whatever their times. -/
theorem admitsTimes_constrained_iff {organization project : RateLimit}
    (horganization : organization.isZero = false)
    {key : WindowKey} {limited allowing : AdmissionService}
    (hlimited : limited.Limits key (constrainRateLimit (some organization) (some project)))
    (hallowing : allowing.Limits key (some organization)) :
    (∀ times, times.Pairwise (· ≤ ·) → limited.AdmitsTimes key times →
        allowing.AdmitsTimes key times) ↔
      project.window ≤ organization.window ∨ organization.window = 1 ∨
        2 * min organization.requests project.requests ≤ organization.requests + 1 := by
  obtain ⟨hrequests, hwindow⟩ := not_or.mp (of_decide_eq_false horganization)
  have hiff := @forall_admitsAll_iff_of_ones (RateLimit.fixed
    ⟨min organization.requests project.requests, max organization.window project.window⟩)
    organization.fixed (Nat.pos_of_ne_zero hrequests) (Nat.pos_of_ne_zero hwindow)
    (Nat.min_le_left _ _) (Nat.le_max_left _ _)
  have hsame : max organization.window project.window = organization.window ↔
      project.window ≤ organization.window := sup_eq_left
  rw [← hsame]
  refine Iff.trans ?_ hiff
  constructor
  · intro hall calls hordered hones
    have hcalls : (calls.map Call.time).map (⟨·, 1⟩) = calls := by
      rw [List.map_map]
      refine (List.map_congr_left fun call hcall => ?_).trans (List.map_id calls)
      exact congrArg (Call.mk call.time) (hones call hcall).symm
    have hadmits := hall (calls.map Call.time) (List.pairwise_map.mpr hordered)
    rw [AdmissionService.admitsTimes_iff hlimited, AdmissionService.admitsTimes_iff hallowing,
      hcalls] at hadmits
    exact hadmits
  · intro hall times hordered
    rw [AdmissionService.admitsTimes_iff hlimited, AdmissionService.admitsTimes_iff hallowing]
    exact hall _ (List.pairwise_map.mpr hordered) (List.forall_mem_map.mpr fun _ _ => rfl)

/-! ### Units of ingestion -/

structure UnitsCall where
  units : ℕ
  now : ℕ
  deriving DecidableEq, Repr

namespace ResourceGovernor

variable (projectId : String) (budget : ThroughputBudget)

/-- Ingestions of units that a budget is asked for one after another. -/
def unitsAnswers (governor : ResourceGovernor) :
    List UnitsCall → List (Except ResourceGovernanceError Unit)
  | [] => []
  | call :: rest =>
      let (answer, governor') :=
        governor.admitIngestionUnits projectId .ingestion call.units budget call.now
      answer :: unitsAnswers governor' rest

def AdmitsUnits (governor : ResourceGovernor) (calls : List UnitsCall) : Prop :=
  ∀ answer ∈ governor.unitsAnswers projectId budget calls, answer.isOk = true

end ResourceGovernor

def ThroughputBudget.fixed (budget : ThroughputBudget) : Limit := ⟨budget.units, budget.window⟩

def UnitsCall.call (call : UnitsCall) : Call := ⟨call.now, call.units⟩

namespace ResourceGovernor

variable {governor : ResourceGovernor} {projectId : String} {budget : ThroughputBudget}

theorem admitIngestionUnits_eq (governor : ResourceGovernor) (projectId : String)
    (budget : ThroughputBudget) (call : UnitsCall) :
    (governor.admitIngestionUnits projectId .ingestion call.units budget call.now).1.isOk =
        budget.fixed.fits (call.call,
          budget.fixed.windowAt (governor.throughput projectId) call.now) ∧
      (governor.admitIngestionUnits projectId .ingestion call.units budget call.now).2.throughput
          projectId =
        some (budget.fixed.advance (governor.throughput projectId) call.call) := by
  have hwindow : governor.windowAt projectId budget call.now =
      budget.fixed.windowAt (governor.throughput projectId) call.now := rfl
  unfold admitIngestionUnits
  rw [hwindow]
  dsimp only
  by_cases hexceeded : budget.units -
      (budget.fixed.windowAt (governor.throughput projectId) call.now).used < call.units
  · have hdenied : budget.fixed.fits (⟨call.now, call.units⟩,
        budget.fixed.windowAt (governor.throughput projectId) call.now) = false :=
      decide_eq_false (Nat.not_le.mpr hexceeded)
    rw [if_pos hexceeded]
    refine ⟨hdenied.symm, ?_⟩
    dsimp only
    rw [throughput_recordMetric, throughput_setWindow, if_pos rfl]
    exact congrArg some (if_neg (Bool.eq_false_iff.mp hdenied)).symm
  · have hfits : budget.fixed.fits (⟨call.now, call.units⟩,
        budget.fixed.windowAt (governor.throughput projectId) call.now) = true :=
      decide_eq_true (Nat.not_lt.mp hexceeded)
    rw [if_neg hexceeded]
    refine ⟨hfits.symm, ?_⟩
    dsimp only
    rw [throughput_setWindow, if_pos rfl]
    exact congrArg some (if_pos hfits).symm

theorem admitsUnits_iff (hfresh : governor.throughput projectId = none) (calls : List UnitsCall) :
    governor.AdmitsUnits projectId budget calls ↔
      budget.fixed.AdmitsAll (calls.map UnitsCall.call) := by
  have hanswers (governor : ResourceGovernor) :
      (governor.unitsAnswers projectId budget calls).map Except.isOk =
        (budget.fixed.entries (governor.throughput projectId) (calls.map UnitsCall.call)).map
          budget.fixed.fits := by
    induction calls generalizing governor with
    | nil => rfl
    | cons call rest ih =>
      obtain ⟨hanswer, hnext⟩ := admitIngestionUnits_eq governor projectId budget call
      rw [unitsAnswers, List.map_cons, List.map_cons, Limit.entries, List.map_cons, ih, hnext,
        hanswer]
      rfl
  have hfits := hanswers governor
  rw [hfresh] at hfits
  calc governor.AdmitsUnits projectId budget calls
      ↔ ∀ answer ∈ (governor.unitsAnswers projectId budget calls).map Except.isOk,
          answer = true := by rw [List.forall_mem_map, AdmitsUnits]
    _ ↔ budget.fixed.AdmitsAll (calls.map UnitsCall.call) := by
      rw [hfits, List.forall_mem_map, Limit.AdmitsAll]

end ResourceGovernor

/-- When all units that the constrained budget admits are admitted by the organization's
budget alone, whatever their numbers and times. -/
theorem admitsUnits_constrained_iff {organization project effective : ThroughputBudget}
    (horganization : organization.isZero = false)
    (heffective : constrainThroughput (some organization) (some project) = some effective)
    {projectId : String} {limited allowing : ResourceGovernor}
    (hlimited : limited.throughput projectId = none)
    (hallowing : allowing.throughput projectId = none) :
    (∀ calls : List UnitsCall, calls.Pairwise (·.now ≤ ·.now) →
        limited.AdmitsUnits projectId effective calls →
        allowing.AdmitsUnits projectId organization calls) ↔
      project.window ≤ organization.window ∨ organization.window = 1 ∨
        2 * min organization.units project.units ≤ organization.units := by
  obtain ⟨-, hwindow⟩ := not_or.mp (of_decide_eq_false horganization)
  cases heffective
  have hiff := @forall_admitsAll_iff (ThroughputBudget.fixed
    ⟨min organization.units project.units, max organization.window project.window⟩)
    organization.fixed (Nat.pos_of_ne_zero hwindow) (Nat.min_le_left _ _) (Nat.le_max_left _ _)
  have hsame : max organization.window project.window = organization.window ↔
      project.window ≤ organization.window := sup_eq_left
  rw [← hsame]
  refine Iff.trans ?_ hiff
  simp only [ResourceGovernor.admitsUnits_iff hlimited, ResourceGovernor.admitsUnits_iff hallowing]
  constructor
  · intro hall calls hordered
    have hcalls : (calls.map fun call => UnitsCall.mk call.weight call.time).map UnitsCall.call =
        calls := by
      rw [List.map_map]
      exact List.map_id calls
    have htimes : (calls.map fun call => UnitsCall.mk call.weight call.time).Pairwise
        (·.now ≤ ·.now) := by
      rw [List.pairwise_map]
      exact hordered
    have hadmits := hall _ htimes
    rwa [hcalls] at hadmits
  · exact fun hall calls hordered => hall _ (List.pairwise_map.mpr hordered)

/-- When constraining keeps to the organization, for requests and for units. -/
theorem constrained_iff (organization project : RateLimit)
    (organizationBudget projectBudget effective : ThroughputBudget)
    (hrate : organization.isZero = false) (hbudget : organizationBudget.isZero = false)
    (heffective : constrainThroughput (some organizationBudget) (some projectBudget) =
      some effective) :
    (∀ key (limited allowing : AdmissionService),
      limited.Limits key (constrainRateLimit (some organization) (some project)) →
      allowing.Limits key (some organization) →
      ((∀ times, times.Pairwise (· ≤ ·) → limited.AdmitsTimes key times →
          allowing.AdmitsTimes key times) ↔
        project.window ≤ organization.window ∨ organization.window = 1 ∨
          2 * min organization.requests project.requests ≤ organization.requests + 1)) ∧
    ∀ projectId (limited allowing : ResourceGovernor),
      limited.throughput projectId = none → allowing.throughput projectId = none →
      ((∀ calls : List UnitsCall, calls.Pairwise (·.now ≤ ·.now) →
          limited.AdmitsUnits projectId effective calls →
          allowing.AdmitsUnits projectId organizationBudget calls) ↔
        projectBudget.window ≤ organizationBudget.window ∨ organizationBudget.window = 1 ∨
          2 * min organizationBudget.units projectBudget.units ≤ organizationBudget.units) :=
  ⟨fun _ _ _ => admitsTimes_constrained_iff hrate,
    fun _ _ _ => admitsUnits_constrained_iff hbudget heffective⟩

theorem constrained_iff_wide :
    (∀ key (limited allowing : AdmissionService),
      limited.Limits key (constrainRateLimit (some ⟨4, 10⟩) (some ⟨2, 15⟩)) →
      allowing.Limits key (some ⟨4, 10⟩) →
      ((∀ times, times.Pairwise (· ≤ ·) → limited.AdmitsTimes key times →
          allowing.AdmitsTimes key times) ↔ 15 ≤ 10 ∨ 10 = 1 ∨ 2 * min 4 2 ≤ 4 + 1)) ∧
    ∀ projectId (limited allowing : ResourceGovernor),
      limited.throughput projectId = none → allowing.throughput projectId = none →
      ((∀ calls : List UnitsCall, calls.Pairwise (·.now ≤ ·.now) →
          limited.AdmitsUnits projectId ⟨2, 15⟩ calls →
          allowing.AdmitsUnits projectId ⟨4, 10⟩ calls) ↔
        15 ≤ 10 ∨ 10 = 1 ∨ 2 * min 4 2 ≤ 4) :=
  constrained_iff ⟨4, 10⟩ ⟨2, 15⟩ ⟨4, 10⟩ ⟨2, 15⟩ ⟨2, 15⟩ rfl rfl rfl

def rateService (limit : Option RateLimit) : AdmissionService :=
  ⟨⟨(∅ : Std.ExtTreeMap String GovernancePolicy compare).insert "search"
    ⟨limit, none, none, ⟨none, none⟩⟩⟩, fun _ => none, fun _ => 0, fun _ => 0⟩

theorem limits_rateService (limit : Option RateLimit) :
    (rateService limit).Limits ("search", .read) limit := by
  refine ⟨?_, rfl⟩
  rw [AdmissionService.limitOf, rateService]
  dsimp only
  rw [Std.ExtTreeMap.getElem?_insert_self]
  rfl

/-- Two requests in ten, constrained to two in fifteen: of those at 0, 14, 15 and 15 the
organization denies the last. -/
theorem not_constrained_within : ¬∀ (organization project : RateLimit),
    organization.isZero = false → project.isZero = false →
      ∀ key (limited allowing : AdmissionService),
        limited.Limits key (constrainRateLimit (some organization) (some project)) →
        allowing.Limits key (some organization) →
        ∀ times, times.Pairwise (· ≤ ·) → limited.AdmitsTimes key times →
          allowing.AdmitsTimes key times := by
  intro hall
  have hlimited := limits_rateService (constrainRateLimit (some ⟨2, 10⟩) (some ⟨2, 15⟩))
  have hallowing := limits_rateService (some ⟨2, 10⟩)
  have hadmits := hall ⟨2, 10⟩ ⟨2, 15⟩ rfl rfl _ _ _ hlimited hallowing [0, 14, 15, 15] (by decide)
  rw [AdmissionService.admitsTimes_iff hlimited, AdmissionService.admitsTimes_iff hallowing] at hadmits
  unfold Limit.AdmitsAll at hadmits
  exact absurd (hadmits (by decide)) (by decide)

end Ketebe
