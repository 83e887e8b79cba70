import Ketebe.Memberships
import Mathlib.Order.Lattice.Nat
import Mathlib.Order.WithBot

/-!
Admission policies and resource budgets of projects. A policy limits the rate of
requests and the size of a project, a budget its concurrent work. A limit that is
absent permits most, so that policies are ordered by what they permit, and the
policy of an organization constrains that of a project to their meet.
-/
namespace Ketebe

inductive GovernanceError where
  | invalidPolicy
  | rateLimited (retryAfter : ℕ)
  | collectionQuotaExceeded (limit : ℕ)
  | recordQuotaExceeded (limit : ℕ)
  deriving DecidableEq, Repr

inductive ResourceWorkClass where
  | query
  | write
  | ingestion
  | background
  deriving DecidableEq, Repr

inductive ResourceGovernanceError where
  | invalidPolicy
  | concurrencyExceeded (workClass : ResourceWorkClass) (limit retryAfter : ℕ)
  | throughputExceeded (workClass : ResourceWorkClass) (limit retryAfter : ℕ)
  deriving DecidableEq, Repr

/-- Durations are in nanoseconds. -/
structure RateLimit where
  requests : ℕ
  window : ℕ
  deriving DecidableEq, Repr

structure ProjectQuota where
  maxCollections : Option ℕ
  maxRecords : Option ℕ
  deriving DecidableEq, Repr

structure GovernancePolicy where
  read : Option RateLimit
  write : Option RateLimit
  admin : Option RateLimit
  quota : ProjectQuota
  deriving DecidableEq, Repr

structure ThroughputBudget where
  units : ℕ
  window : ℕ
  deriving DecidableEq, Repr

structure ProjectResourceBudget where
  maxConcurrentQueries : ℕ
  maxConcurrentWrites : ℕ
  maxConcurrentIngestion : ℕ
  maxConcurrentBackground : ℕ
  ingestionThroughput : Option ThroughputBudget
  deriving DecidableEq, Repr

def RateLimit.isZero (limit : RateLimit) : Bool := limit.requests = 0 ∨ limit.window = 0

def ThroughputBudget.isZero (limit : ThroughputBudget) : Bool := limit.units = 0 ∨ limit.window = 0

def GovernancePolicy.default : GovernancePolicy := ⟨none, none, none, ⟨none, none⟩⟩

def GovernancePolicy.validate (policy : GovernancePolicy) : Except GovernanceError Unit :=
  if ([policy.read, policy.write, policy.admin].filterMap id).any RateLimit.isZero then
    .error .invalidPolicy
  else if policy.quota.maxCollections = some 0 ∨ policy.quota.maxRecords = some 0 then
    .error .invalidPolicy
  else .ok ()

def ProjectResourceBudget.default : ProjectResourceBudget := ⟨32, 16, 8, 4, none⟩

def ProjectResourceBudget.validate (budget : ProjectResourceBudget) :
    Except ResourceGovernanceError ProjectResourceBudget :=
  if budget.maxConcurrentQueries = 0 ∨ budget.maxConcurrentWrites = 0 ∨
      budget.maxConcurrentIngestion = 0 ∨ budget.maxConcurrentBackground = 0 then
    .error .invalidPolicy
  else if budget.ingestionThroughput.any ThroughputBudget.isZero then .error .invalidPolicy
  else .ok budget

/-! ### The enforcing services -/

/-- The admission policies in force. -/
structure GovernanceService where
  policies : Std.ExtTreeMap String GovernancePolicy compare

/-- The resource budgets in force. -/
structure InMemoryResourceGovernor where
  policies : Std.ExtTreeMap String ProjectResourceBudget compare

def GovernanceService.setProjectPolicy (service : GovernanceService) (projectId : String)
    (policy : GovernancePolicy) : Except GovernanceError GovernanceService := do
  policy.validate
  if trim projectId = "" then .error .invalidPolicy
  else pure ⟨service.policies.insert projectId policy⟩

def InMemoryResourceGovernor.setProjectBudget (governor : InMemoryResourceGovernor)
    (projectId : String) (budget : ProjectResourceBudget) :
    Except ResourceGovernanceError InMemoryResourceGovernor := do
  if trim projectId = "" then .error .invalidPolicy
  else
    let budget ← budget.validate
    pure ⟨governor.policies.insert projectId budget⟩

/-! ### Constraining a policy -/

section Limits

variable {α β : Type}

/-- The stricter of two optional limits. -/
def constrainLimit (tighten : α → α → α) : Option α → Option α → Option α
  | some organization, some project => some (tighten organization project)
  | some organization, none => some organization
  | none, some project => some project
  | none, none => none

/-- A limit is there where the outer one is, and it permits no more. -/
def LimitWithin (le : α → α → Prop) (inner outer : Option α) : Prop :=
  ∀ limit ∈ outer, ∃ tighter ∈ inner, le tighter limit

/-- What an optional limit permits; no limit permits most. -/
def permitted (permits : α → β) (limit : Option α) : WithTop β := limit.map permits

theorem permitted_injective {permits : α → β} (h : permits.Injective) :
    (permitted permits).Injective := Option.map_injective h

variable {permits : α → β}

theorem permitted_constrainLimit [SemilatticeInf β] {tighten : α → α → α}
    (h : ∀ a b, permits (tighten a b) = permits a ⊓ permits b) (organization project : Option α) :
    permitted permits (constrainLimit tighten organization project) =
      permitted permits organization ⊓ permitted permits project := by
  cases organization with
  | none => cases project <;> rfl
  | some organization =>
    cases project with
    | none => rfl
    | some project => exact congrArg (WithTop.some) (h organization project)

theorem limitWithin_iff [Preorder β] {le : α → α → Prop}
    (h : ∀ a b, le a b ↔ permits a ≤ permits b) (inner outer : Option α) :
    LimitWithin le inner outer ↔ permitted permits inner ≤ permitted permits outer := by
  cases outer with
  | none =>
    constructor
    · intro _
      exact (le_top : permitted permits inner ≤ (⊤ : WithTop β))
    · intro _ limit hlimit
      cases hlimit
  | some limit =>
    cases inner with
    | none =>
      constructor
      · intro hwithin
        obtain ⟨_, hnone, -⟩ := hwithin limit rfl
        cases hnone
      · intro hle
        exact absurd hle (WithTop.not_top_le_coe (permits limit))
    | some tighter =>
      have hcoe : permitted permits (some tighter) ≤ permitted permits (some limit) ↔
          permits tighter ≤ permits limit := WithTop.coe_le_coe
      rw [hcoe, ← h]
      constructor
      · intro hwithin
        obtain ⟨_, htighter, hle⟩ := hwithin limit rfl
        cases htighter
        exact hle
      · intro hle _ hlimit
        cases hlimit
        exact ⟨tighter, rfl, hle⟩

theorem forall_constrainLimit {tighten : α → α → α} {P : α → Prop}
    (h : ∀ a b, P a → P b → P (tighten a b)) {organization project : Option α}
    (horganization : ∀ limit ∈ organization, P limit) (hproject : ∀ limit ∈ project, P limit) :
    ∀ limit ∈ constrainLimit tighten organization project, P limit := by
  cases organization with
  | none => cases project <;> assumption
  | some organization =>
    cases project with
    | none => assumption
    | some project =>
      intro limit hlimit
      cases hlimit
      exact h _ _ (horganization _ rfl) (hproject _ rfl)

end Limits

def constrainRateLimit : Option RateLimit → Option RateLimit → Option RateLimit :=
  constrainLimit fun organization project =>
    ⟨min organization.requests project.requests, max organization.window project.window⟩

def constrainOptionalU64 : Option ℕ → Option ℕ → Option ℕ := constrainLimit min

def constrainThroughput :
    Option ThroughputBudget → Option ThroughputBudget → Option ThroughputBudget :=
  constrainLimit fun organization project =>
    ⟨min organization.units project.units, max organization.window project.window⟩

def constrainGovernancePolicy (organization project : GovernancePolicy) : GovernancePolicy :=
  ⟨constrainRateLimit organization.read project.read,
    constrainRateLimit organization.write project.write,
    constrainRateLimit organization.admin project.admin,
    ⟨constrainOptionalU64 organization.quota.maxCollections project.quota.maxCollections,
      constrainOptionalU64 organization.quota.maxRecords project.quota.maxRecords⟩⟩

def constrainResourceBudget (organization project : ProjectResourceBudget) :
    ProjectResourceBudget :=
  ⟨min organization.maxConcurrentQueries project.maxConcurrentQueries,
    min organization.maxConcurrentWrites project.maxConcurrentWrites,
    min organization.maxConcurrentIngestion project.maxConcurrentIngestion,
    min organization.maxConcurrentBackground project.maxConcurrentBackground,
    constrainThroughput organization.ingestionThroughput project.ingestionThroughput⟩

/-! ### What a policy permits -/

/-- More requests in a shorter window permit more. -/
abbrev Rate : Type := ℕ × ℕᵒᵈ

def RateLimit.permits (limit : RateLimit) : Rate := (limit.requests, OrderDual.toDual limit.window)

def ThroughputBudget.permits (limit : ThroughputBudget) : Rate :=
  (limit.units, OrderDual.toDual limit.window)

def GovernancePolicy.permits (policy : GovernancePolicy) :
    WithTop Rate × WithTop Rate × WithTop Rate × WithTop ℕ × WithTop ℕ :=
  (permitted RateLimit.permits policy.read, permitted RateLimit.permits policy.write,
    permitted RateLimit.permits policy.admin, permitted id policy.quota.maxCollections,
    permitted id policy.quota.maxRecords)

def ProjectResourceBudget.permits (budget : ProjectResourceBudget) :
    ℕ × ℕ × ℕ × ℕ × WithTop Rate :=
  (budget.maxConcurrentQueries, budget.maxConcurrentWrites, budget.maxConcurrentIngestion,
    budget.maxConcurrentBackground, permitted ThroughputBudget.permits budget.ingestionThroughput)

/-- No more requests, in no shorter window. -/
def RateLimit.Within (limit outer : RateLimit) : Prop :=
  limit.requests ≤ outer.requests ∧ outer.window ≤ limit.window

def ThroughputBudget.Within (limit outer : ThroughputBudget) : Prop :=
  limit.units ≤ outer.units ∧ outer.window ≤ limit.window

/-- In every component at most the outer policy, and no limit of it is dropped. -/
structure GovernancePolicy.Within (policy outer : GovernancePolicy) : Prop where
  read : LimitWithin RateLimit.Within policy.read outer.read
  write : LimitWithin RateLimit.Within policy.write outer.write
  admin : LimitWithin RateLimit.Within policy.admin outer.admin
  maxCollections : LimitWithin (· ≤ ·) policy.quota.maxCollections outer.quota.maxCollections
  maxRecords : LimitWithin (· ≤ ·) policy.quota.maxRecords outer.quota.maxRecords

structure ProjectResourceBudget.Within (budget outer : ProjectResourceBudget) : Prop where
  queries : budget.maxConcurrentQueries ≤ outer.maxConcurrentQueries
  writes : budget.maxConcurrentWrites ≤ outer.maxConcurrentWrites
  ingestion : budget.maxConcurrentIngestion ≤ outer.maxConcurrentIngestion
  background : budget.maxConcurrentBackground ≤ outer.maxConcurrentBackground
  throughput :
    LimitWithin ThroughputBudget.Within budget.ingestionThroughput outer.ingestionThroughput

theorem RateLimit.permits_injective : RateLimit.permits.Injective := by
  intro a b h
  have hrequests : a.requests = b.requests := congrArg Prod.fst h
  have hwindow : a.window = b.window := congrArg Prod.snd h
  cases a
  cases b
  simp_all only

theorem ThroughputBudget.permits_injective : ThroughputBudget.permits.Injective := by
  intro a b h
  have hunits : a.units = b.units := congrArg Prod.fst h
  have hwindow : a.window = b.window := congrArg Prod.snd h
  cases a
  cases b
  simp_all only

namespace GovernancePolicy

variable {policy outer organization project : GovernancePolicy}

theorem permits_injective : permits.Injective := by
  intro a b h
  obtain ⟨hread, hwrite, hadmin, hcollections, hrecords⟩ := by
    simpa only [permits, Prod.mk.injEq] using h
  have hrates := permitted_injective RateLimit.permits_injective
  have hquotas := permitted_injective (Function.injective_id (α := ℕ))
  obtain ⟨read, write, admin, quota⟩ := a
  obtain ⟨read', write', admin', quota'⟩ := b
  obtain ⟨rfl, rfl, rfl⟩ : read = read' ∧ write = write' ∧ admin = admin' :=
    ⟨hrates hread, hrates hwrite, hrates hadmin⟩
  have hquota : quota = quota' := by
    cases quota
    cases quota'
    rw [ProjectQuota.mk.injEq]
    exact ⟨hquotas hcollections, hquotas hrecords⟩
  rw [hquota]

theorem within_iff : policy.Within outer ↔ policy.permits ≤ outer.permits := by
  have hrates (inner outer : Option RateLimit) :
      LimitWithin RateLimit.Within inner outer ↔
        permitted RateLimit.permits inner ≤ permitted RateLimit.permits outer :=
    limitWithin_iff (fun _ _ => Prod.mk_le_mk.symm) inner outer
  have hquotas (inner outer : Option ℕ) :
      LimitWithin (· ≤ ·) inner outer ↔ permitted id inner ≤ permitted id outer :=
    limitWithin_iff (fun _ _ => Iff.rfl) inner outer
  simp only [permits, Prod.mk_le_mk, ← hrates, ← hquotas]
  constructor
  · intro h
    exact ⟨h.read, h.write, h.admin, h.maxCollections, h.maxRecords⟩
  · intro h
    exact ⟨h.1, h.2.1, h.2.2.1, h.2.2.2.1, h.2.2.2.2⟩

/-- Constraining a policy takes the meet. -/
theorem permits_constrain : (constrainGovernancePolicy organization project).permits =
    organization.permits ⊓ project.permits := by
  have hrates (organization project : Option RateLimit) :
      permitted RateLimit.permits (constrainRateLimit organization project) =
        permitted RateLimit.permits organization ⊓ permitted RateLimit.permits project :=
    permitted_constrainLimit (fun _ _ => rfl) organization project
  have hquotas (organization project : Option ℕ) :
      permitted id (constrainOptionalU64 organization project) =
        permitted id organization ⊓ permitted id project :=
    permitted_constrainLimit (fun _ _ => rfl) organization project
  simp only [permits, constrainGovernancePolicy, hrates, hquotas, Prod.mk_inf_mk]

theorem constrain_within : (constrainGovernancePolicy organization project).Within organization := by
  rw [within_iff, permits_constrain]
  exact inf_le_left

theorem constrain_constrain : constrainGovernancePolicy organization
    (constrainGovernancePolicy organization project) =
      constrainGovernancePolicy organization project := by
  apply permits_injective
  rw [permits_constrain, permits_constrain, inf_left_idem]

/-- An organization's policy stays as it is exactly when the project's is no stricter. -/
theorem constrain_eq_iff :
    constrainGovernancePolicy organization project = organization ↔
      organization.Within project := by
  rw [← permits_injective.eq_iff, permits_constrain, inf_eq_left, within_iff]

theorem within_self : policy.Within policy := within_iff.mpr le_rfl

theorem validate_iff : policy.validate = .ok () ↔
    ((∀ limit ∈ policy.read, limit.isZero = false) ∧
      (∀ limit ∈ policy.write, limit.isZero = false) ∧
        ∀ limit ∈ policy.admin, limit.isZero = false) ∧
      (∀ limit ∈ policy.quota.maxCollections, limit ≠ 0) ∧
        ∀ limit ∈ policy.quota.maxRecords, limit ≠ 0 := by
  have hlimits : ([policy.read, policy.write, policy.admin].filterMap id).any RateLimit.isZero =
      false ↔ (∀ limit ∈ policy.read, limit.isZero = false) ∧
        (∀ limit ∈ policy.write, limit.isZero = false) ∧
          ∀ limit ∈ policy.admin, limit.isZero = false := by
    simp only [List.any_eq_false, List.mem_filterMap, List.mem_cons, List.not_mem_nil, or_false,
      id, Option.mem_def, Bool.not_eq_true]
    constructor
    · intro h
      exact ⟨fun limit hlimit => h limit ⟨_, .inl rfl, hlimit⟩,
        fun limit hlimit => h limit ⟨_, .inr (.inl rfl), hlimit⟩,
        fun limit hlimit => h limit ⟨_, .inr (.inr rfl), hlimit⟩⟩
    · intro h limit hlimit
      obtain ⟨_, rfl | rfl | rfl, hlimit⟩ := hlimit
      · exact h.1 limit hlimit
      · exact h.2.1 limit hlimit
      · exact h.2.2 limit hlimit
  have hquota (quota : Option ℕ) : (∀ limit ∈ quota, limit ≠ 0) ↔ quota ≠ some 0 := by
    cases quota <;> simp
  rw [← hlimits, hquota, hquota, ← not_or, validate]
  generalize ([policy.read, policy.write, policy.admin].filterMap id).any RateLimit.isZero = zero
  cases zero with
  | true => simp
  | false =>
    by_cases hnone : policy.quota.maxCollections = some 0 ∨ policy.quota.maxRecords = some 0
    · simp [hnone]
    · simp [hnone]

theorem validate_default : GovernancePolicy.default.validate = .ok () := rfl

/-- The meet of two policies that are accepted is accepted. -/
theorem validate_constrain (horganization : organization.validate = .ok ())
    (hproject : project.validate = .ok ()) :
    (constrainGovernancePolicy organization project).validate = .ok () := by
  have hrates (a b : RateLimit) (ha : a.isZero = false) (hb : b.isZero = false) :
      RateLimit.isZero ⟨min a.requests b.requests, max a.window b.window⟩ = false := by
    simp only [RateLimit.isZero, decide_eq_false_iff_not] at *
    omega
  have hquotas (a b : ℕ) (ha : a ≠ 0) (hb : b ≠ 0) : min a b ≠ 0 := by omega
  obtain ⟨⟨horead, howrite, hoadmin⟩, hocollections, horecords⟩ := validate_iff.mp horganization
  obtain ⟨⟨hpread, hpwrite, hpadmin⟩, hpcollections, hprecords⟩ := validate_iff.mp hproject
  rw [validate_iff]
  exact ⟨⟨forall_constrainLimit hrates horead hpread, forall_constrainLimit hrates howrite hpwrite,
    forall_constrainLimit hrates hoadmin hpadmin⟩,
    forall_constrainLimit hquotas hocollections hpcollections,
    forall_constrainLimit hquotas horecords hprecords⟩

end GovernancePolicy

namespace ProjectResourceBudget

variable {budget outer organization project : ProjectResourceBudget}

theorem permits_injective : permits.Injective := by
  intro a b h
  obtain ⟨hqueries, hwrites, hingestion, hbackground, hthroughput⟩ := by
    simpa only [permits, Prod.mk.injEq] using h
  have hthroughput := permitted_injective ThroughputBudget.permits_injective hthroughput
  cases a
  cases b
  simp_all only

theorem within_iff : budget.Within outer ↔ budget.permits ≤ outer.permits := by
  have hthroughputs (inner outer : Option ThroughputBudget) :
      LimitWithin ThroughputBudget.Within inner outer ↔
        permitted ThroughputBudget.permits inner ≤ permitted ThroughputBudget.permits outer :=
    limitWithin_iff (fun _ _ => Prod.mk_le_mk.symm) inner outer
  simp only [permits, Prod.mk_le_mk, ← hthroughputs]
  constructor
  · intro h
    exact ⟨h.queries, h.writes, h.ingestion, h.background, h.throughput⟩
  · intro h
    exact ⟨h.1, h.2.1, h.2.2.1, h.2.2.2.1, h.2.2.2.2⟩

theorem permits_constrain : (constrainResourceBudget organization project).permits =
    organization.permits ⊓ project.permits := by
  have hthroughputs : permitted ThroughputBudget.permits
      (constrainThroughput organization.ingestionThroughput project.ingestionThroughput) =
        permitted ThroughputBudget.permits organization.ingestionThroughput ⊓
          permitted ThroughputBudget.permits project.ingestionThroughput :=
    permitted_constrainLimit (fun _ _ => rfl) _ _
  simp only [permits, constrainResourceBudget, hthroughputs, Prod.mk_inf_mk]

theorem constrain_within : (constrainResourceBudget organization project).Within organization := by
  rw [within_iff, permits_constrain]
  exact inf_le_left

theorem constrain_constrain :
    constrainResourceBudget organization (constrainResourceBudget organization project) =
      constrainResourceBudget organization project := by
  apply permits_injective
  rw [permits_constrain, permits_constrain, inf_left_idem]

theorem constrain_eq_iff :
    constrainResourceBudget organization project = organization ↔ organization.Within project := by
  rw [← permits_injective.eq_iff, permits_constrain, inf_eq_left, within_iff]

theorem within_self : budget.Within budget := within_iff.mpr le_rfl

theorem validate_iff : budget.validate = .ok budget ↔
    (budget.maxConcurrentQueries ≠ 0 ∧ budget.maxConcurrentWrites ≠ 0 ∧
      budget.maxConcurrentIngestion ≠ 0 ∧ budget.maxConcurrentBackground ≠ 0) ∧
      ∀ limit ∈ budget.ingestionThroughput, limit.isZero = false := by
  have hlimit : budget.ingestionThroughput.any ThroughputBudget.isZero = false ↔
      ∀ limit ∈ budget.ingestionThroughput, limit.isZero = false := by
    cases budget.ingestionThroughput <;> simp
  rw [← hlimit, validate]
  by_cases hzero : budget.maxConcurrentQueries = 0 ∨ budget.maxConcurrentWrites = 0 ∨
      budget.maxConcurrentIngestion = 0 ∨ budget.maxConcurrentBackground = 0
  · rw [if_pos hzero]
    simp only [reduceCtorEq, false_iff]
    omega
  · rw [if_neg hzero]
    by_cases hthroughput : budget.ingestionThroughput.any ThroughputBudget.isZero
    · simp [hthroughput]
    · have hpositive : budget.maxConcurrentQueries ≠ 0 ∧ budget.maxConcurrentWrites ≠ 0 ∧
          budget.maxConcurrentIngestion ≠ 0 ∧ budget.maxConcurrentBackground ≠ 0 := by omega
      simp [hthroughput, hpositive]

theorem validate_eq (h : ∃ checked, budget.validate = .ok checked) :
    budget.validate = .ok budget := by
  obtain ⟨checked, h⟩ := h
  unfold validate at *
  split at h
  · cases h
  split at h
  · cases h
  · cases h
    rename_i hpositive hthroughput
    rw [if_neg hpositive, if_neg hthroughput]

theorem validate_constrain (horganization : organization.validate = .ok organization)
    (hproject : project.validate = .ok project) :
    (constrainResourceBudget organization project).validate =
      .ok (constrainResourceBudget organization project) := by
  have hrates (a b : ThroughputBudget) (ha : a.isZero = false) (hb : b.isZero = false) :
      ThroughputBudget.isZero ⟨min a.units b.units, max a.window b.window⟩ = false := by
    simp only [ThroughputBudget.isZero, decide_eq_false_iff_not] at *
    omega
  obtain ⟨hopositive, hothroughput⟩ := validate_iff.mp horganization
  obtain ⟨hppositive, hpthroughput⟩ := validate_iff.mp hproject
  rw [validate_iff]
  refine ⟨?_, forall_constrainLimit hrates hothroughput hpthroughput⟩
  simp only [constrainResourceBudget]
  omega

end ProjectResourceBudget

end Ketebe
