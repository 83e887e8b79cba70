import Ketebe.ControlPlaneFiles
import Ketebe.Governance
import Ketebe.Lib.Runs

/-!
Organization governance. The policy of an organization bounds that of its projects,
whatever override a project has stored. Overrides are refused while the policy
forbids them; one that is stored already stays, and still permits no more.
-/
namespace Ketebe

open Lib.ByteCodec Lib.Runs

structure OrganizationGovernancePolicy where
  governance : GovernancePolicy
  resources : ProjectResourceBudget
  projectOverridesAllowed : Bool
  deriving DecidableEq, Repr

structure ProjectGovernanceOverride where
  governance : Option GovernancePolicy
  resources : Option ProjectResourceBudget
  deriving DecidableEq, Repr

def ProjectGovernanceOverride.default : ProjectGovernanceOverride := ⟨none, none⟩

structure EffectiveProjectGovernancePolicy where
  organizationId : OrganizationId
  projectId : ProjectId
  governance : GovernancePolicy
  resources : ProjectResourceBudget
  constrainedByOrganization : Bool
  deriving DecidableEq

structure GovernancePolicyFile where
  version : ℕ
  organizationPolicies : Std.ExtTreeMap String OrganizationGovernancePolicy compare
  projectOverrides : Std.ExtTreeMap String ProjectGovernanceOverride compare

def governanceStoreVersion : ℕ := 1

def GovernancePolicyFile.default : GovernancePolicyFile := ⟨governanceStoreVersion, ∅, ∅⟩

inductive OrganizationGovernanceError where
  | organizationNotFound
  | projectNotFound
  | projectOverridesDisabled
  | unsupportedVersion (version : ℕ)
  | controlPlane (message : String)
  | governance (error : GovernanceError)
  | resource (error : ResourceGovernanceError)
  | io
  deriving DecidableEq, Repr

/-- Both validators accept the two halves of a policy. -/
def validateHalves (governance : GovernancePolicy) (resources : ProjectResourceBudget) :
    Except OrganizationGovernanceError Unit := do
  governance.validate.mapError .governance
  let _ ← resources.validate.mapError .resource
  pure ()

def OrganizationGovernancePolicy.new (governance : GovernancePolicy)
    (resources : ProjectResourceBudget) (projectOverridesAllowed : Bool) :
    Except OrganizationGovernanceError OrganizationGovernancePolicy := do
  validateHalves governance resources
  pure ⟨governance, resources, projectOverridesAllowed⟩

def ProjectGovernanceOverride.validate (projectOverride : ProjectGovernanceOverride) :
    Except OrganizationGovernanceError Unit := do
  projectOverride.governance.forM fun governance => governance.validate.mapError .governance
  projectOverride.resources.forM fun resources => do
    let _ ← resources.validate.mapError .resource
    pure ()

/-- What opening and reading the control plane gives: its state, or the text of the error. -/
abbrev ControlPlaneReading : Type := Except String ControlPlaneState

namespace ControlPlaneReading

variable (controlPlane : ControlPlaneReading)

def ensureOrganizationExists (id : OrganizationId) : Except OrganizationGovernanceError Unit := do
  let store ← controlPlane.mapError .controlPlane
  match store.organization id with
  | none => .error .organizationNotFound
  | some _ => pure ()

def resolveProjectOrganization (id : ProjectId) :
    Except OrganizationGovernanceError OrganizationId := do
  let store ← controlPlane.mapError .controlPlane
  match store.project id with
  | none => .error .projectNotFound
  | some project => pure project.organizationId

end ControlPlaneReading

/-- `validate_state`. -/
def GovernancePolicyFile.validate (file : GovernancePolicyFile) :
    Except OrganizationGovernanceError Unit := do
  file.organizationPolicies.toList.forM fun entry =>
    validateHalves entry.2.governance entry.2.resources
  file.projectOverrides.toList.forM fun entry => entry.2.validate

namespace GovernancePolicyFile

variable (file : GovernancePolicyFile) (controlPlane : ControlPlaneReading)

/-! The file that an operation writes, if it writes. -/

def setOrganizationPolicy (id : OrganizationId) (policy : OrganizationGovernancePolicy) :
    Except OrganizationGovernanceError (Option GovernancePolicyFile) := do
  controlPlane.ensureOrganizationExists id
  validateHalves policy.governance policy.resources
  pure (some { file with
    organizationPolicies := file.organizationPolicies.insert id.asStr policy })

def removeOrganizationPolicy (id : OrganizationId) :
    Except OrganizationGovernanceError (Option GovernancePolicyFile) := do
  controlPlane.ensureOrganizationExists id
  if id.asStr ∉ file.organizationPolicies then pure none
  else pure (some { file with organizationPolicies := file.organizationPolicies.erase id.asStr })

def setProjectOverride (id : ProjectId) (projectOverride : ProjectGovernanceOverride) :
    Except OrganizationGovernanceError (Option GovernancePolicyFile) := do
  projectOverride.validate
  let organizationId ← controlPlane.resolveProjectOrganization id
  if file.organizationPolicies[organizationId.asStr]?.any fun policy =>
      !policy.projectOverridesAllowed then .error .projectOverridesDisabled
  else pure (some { file with
    projectOverrides := file.projectOverrides.insert id.asStr projectOverride })

def removeProjectOverride (id : ProjectId) :
    Except OrganizationGovernanceError (Option GovernancePolicyFile) := do
  let _ ← controlPlane.resolveProjectOrganization id
  if id.asStr ∉ file.projectOverrides then pure none
  else pure (some { file with projectOverrides := file.projectOverrides.erase id.asStr })

end GovernancePolicyFile

/-- The service: the policies in memory and the file that was last written. -/
structure OrganizationGovernanceService where
  state : GovernancePolicyFile
  disk : Option GovernancePolicyFile

/-- An operation on the policies. -/
inductive GovernanceCall where
  | setOrganizationPolicy (id : OrganizationId) (policy : OrganizationGovernancePolicy)
  | removeOrganizationPolicy (id : OrganizationId)
  | setProjectOverride (id : ProjectId) (projectOverride : ProjectGovernanceOverride)
  | removeProjectOverride (id : ProjectId)

def GovernanceCall.plan (file : GovernancePolicyFile) (controlPlane : ControlPlaneReading) :
    GovernanceCall → Except OrganizationGovernanceError (Option GovernancePolicyFile)
  | .setOrganizationPolicy id policy => file.setOrganizationPolicy controlPlane id policy
  | .removeOrganizationPolicy id => file.removeOrganizationPolicy controlPlane id
  | .setProjectOverride id projectOverride =>
      file.setProjectOverride controlPlane id projectOverride
  | .removeProjectOverride id => file.removeProjectOverride controlPlane id

namespace OrganizationGovernanceService

def openDir (controlPlane : ControlPlaneReading) (disk : Option GovernancePolicyFile) :
    Except OrganizationGovernanceError OrganizationGovernanceService := do
  let _ ← controlPlane.mapError .controlPlane
  match disk with
  | none => pure ⟨.default, disk⟩
  | some file =>
      if file.version ≠ governanceStoreVersion then .error (.unsupportedVersion file.version)
      else
        file.validate
        pure ⟨file, disk⟩

variable (service : OrganizationGovernanceService) (controlPlane : ControlPlaneReading)

/-- A call clones the policies, writes the changed clone and then puts it in place. -/
def call (request : GovernanceCall) (persisted : Bool) :
    OrganizationGovernanceService × Except OrganizationGovernanceError Unit :=
  match request.plan service.state controlPlane with
  | .error error => (service, .error error)
  | .ok none => (service, .ok ())
  | .ok (some next) => if persisted then (⟨next, some next⟩, .ok ()) else (service, .error .io)

def resolveProjectPolicy (id : ProjectId) :
    Except OrganizationGovernanceError EffectiveProjectGovernancePolicy := do
  let organizationId ← controlPlane.resolveProjectOrganization id
  let projectOverride := service.state.projectOverrides.getD id.asStr .default
  match service.state.organizationPolicies[organizationId.asStr]? with
  | some organization =>
      let requestedGovernance := projectOverride.governance.getD organization.governance
      let requestedResources := projectOverride.resources.getD organization.resources
      let governance := constrainGovernancePolicy organization.governance requestedGovernance
      let resources := constrainResourceBudget organization.resources requestedResources
      pure ⟨organizationId, id, governance, resources,
        governance ≠ requestedGovernance ∨ resources ≠ requestedResources⟩
  | none => pure ⟨organizationId, id, projectOverride.governance.getD .default,
      projectOverride.resources.getD .default, false⟩

/-- Configures the enforcing services one after the other. -/
def applyProjectPolicy (id : ProjectId) (governance : GovernanceService)
    (governor : InMemoryResourceGovernor) :
    (GovernanceService × InMemoryResourceGovernor) ×
      Except OrganizationGovernanceError EffectiveProjectGovernancePolicy :=
  match service.resolveProjectPolicy controlPlane id with
  | .error error => ((governance, governor), .error error)
  | .ok effective =>
      match governance.setProjectPolicy id.asStr effective.governance with
      | .error error => ((governance, governor), .error (.governance error))
      | .ok governance =>
          match governor.setProjectBudget id.asStr effective.resources with
          | .error error => ((governance, governor), .error (.resource error))
          | .ok governor => ((governance, governor), .ok effective)

end OrganizationGovernanceService

/-- A call meets the control plane as it then is, and its write may fail. A process that
cannot open its files at a restart does not serve. -/
inductive GovernanceEvent where
  | call (controlPlane : ControlPlaneReading) (request : GovernanceCall) (persisted : Bool)
  | restart (controlPlane : ControlPlaneReading)

def OrganizationGovernanceService.step (service : OrganizationGovernanceService) :
    GovernanceEvent → OrganizationGovernanceService
  | .call controlPlane request persisted => (service.call controlPlane request persisted).1
  | .restart controlPlane =>
      match OrganizationGovernanceService.openDir controlPlane service.disk with
      | .ok opened => opened
      | .error _ => service

/-! ### Every stored policy is accepted -/

theorem validateHalves_ok {governance : GovernancePolicy} {resources : ProjectResourceBudget} :
    validateHalves governance resources = .ok () ↔
      governance.validate = .ok () ∧ resources.validate = .ok resources := by
  constructor
  · intro h
    obtain ⟨_, hgovernance, h⟩ := except_bind_ok.mp h
    obtain ⟨checked, hresources, -⟩ := except_bind_ok.mp h
    exact ⟨mapError_ok_iff.mp hgovernance,
      ProjectResourceBudget.validate_eq ⟨checked, mapError_ok_iff.mp hresources⟩⟩
  · intro h
    rw [validateHalves, h.1, h.2]
    rfl

/-- Whatever an override sets is accepted. -/
structure ProjectGovernanceOverride.Accepted (projectOverride : ProjectGovernanceOverride) :
    Prop where
  governance : ∀ policy ∈ projectOverride.governance, policy.validate = .ok ()
  resources : ∀ budget ∈ projectOverride.resources, budget.validate = .ok budget

theorem ProjectGovernanceOverride.accepted_of_validate
    {projectOverride : ProjectGovernanceOverride} (h : projectOverride.validate = .ok ()) :
    projectOverride.Accepted := by
  obtain ⟨governance, resources⟩ := projectOverride
  obtain ⟨_, hgovernance, hresources⟩ := except_bind_ok.mp h
  constructor
  · intro policy hpolicy
    cases hpolicy
    exact mapError_ok_iff.mp hgovernance
  · intro budget hbudget
    cases hbudget
    obtain ⟨checked, hchecked, -⟩ := except_bind_ok.mp hresources
    exact ProjectResourceBudget.validate_eq ⟨checked, mapError_ok_iff.mp hchecked⟩

namespace GovernancePolicyFile

/-- The validators accept every policy and override of the file. -/
structure Accepted (file : GovernancePolicyFile) : Prop where
  policies : ∀ {key : String} {policy : OrganizationGovernancePolicy},
    file.organizationPolicies[key]? = some policy →
      policy.governance.validate = .ok () ∧ policy.resources.validate = .ok policy.resources
  overrides : ∀ {key : String} {projectOverride : ProjectGovernanceOverride},
    file.projectOverrides[key]? = some projectOverride → projectOverride.Accepted

theorem accepted_default : default.Accepted := by
  constructor
  · intro key policy hpolicy
    simp [default] at hpolicy
  · intro key projectOverride hoverride
    simp [default] at hoverride

theorem accepted_of_validate {file : GovernancePolicyFile} (h : file.validate = .ok ()) :
    file.Accepted := by
  obtain ⟨_, hpolicies, hoverrides⟩ := except_bind_ok.mp h
  constructor
  · intro key policy hpolicy
    exact validateHalves_ok.mp
      (except_forM_ok.mp hpolicies (key, policy) (Std.ExtTreeMap.mem_toList_iff_getElem?_eq_some.mpr hpolicy))
  · intro key projectOverride hoverride
    exact ProjectGovernanceOverride.accepted_of_validate
      (except_forM_ok.mp hoverrides (key, projectOverride)
        (Std.ExtTreeMap.mem_toList_iff_getElem?_eq_some.mpr hoverride))

/-- An operation writes only what the validators accept. -/
theorem Accepted.plan {file next : GovernancePolicyFile} (hfile : file.Accepted)
    {controlPlane : ControlPlaneReading} {request : GovernanceCall}
    (h : request.plan file controlPlane = .ok (some next)) : next.Accepted := by
  cases request with
  | setOrganizationPolicy id policy =>
    obtain ⟨_, -, h⟩ := except_bind_ok.mp h
    obtain ⟨_, hvalid, h⟩ := except_bind_ok.mp h
    cases h
    refine ⟨fun {key found} hfound => ?_, hfile.overrides⟩
    by_cases hkey : id.asStr = key
    · subst hkey
      rw [Std.ExtTreeMap.getElem?_insert_self] at hfound
      cases hfound
      exact validateHalves_ok.mp hvalid
    · rw [Std.ExtTreeMap.getElem?_insert, if_neg (by simpa using hkey)] at hfound
      exact hfile.policies hfound
  | removeOrganizationPolicy id =>
    obtain ⟨_, -, h⟩ := except_bind_ok.mp h
    split at h
    · cases h
    cases h
    refine ⟨fun {key found} hfound => ?_, hfile.overrides⟩
    rw [Std.ExtTreeMap.getElem?_erase] at hfound
    split at hfound
    · cases hfound
    · exact hfile.policies hfound
  | setProjectOverride id projectOverride =>
    obtain ⟨_, hvalid, h⟩ := except_bind_ok.mp h
    obtain ⟨organizationId, -, h⟩ := except_bind_ok.mp h
    split at h
    · cases h
    cases h
    refine ⟨hfile.policies, fun {key found} hfound => ?_⟩
    by_cases hkey : id.asStr = key
    · subst hkey
      rw [Std.ExtTreeMap.getElem?_insert_self] at hfound
      cases hfound
      exact ProjectGovernanceOverride.accepted_of_validate hvalid
    · rw [Std.ExtTreeMap.getElem?_insert, if_neg (by simpa using hkey)] at hfound
      exact hfile.overrides hfound
  | removeProjectOverride id =>
    obtain ⟨_, -, h⟩ := except_bind_ok.mp h
    split at h
    · cases h
    cases h
    refine ⟨hfile.policies, fun {key found} hfound => ?_⟩
    rw [Std.ExtTreeMap.getElem?_erase] at hfound
    split at hfound
    · cases hfound
    · exact hfile.overrides hfound

end GovernancePolicyFile

namespace OrganizationGovernanceService

variable {service : OrganizationGovernanceService} {controlPlane : ControlPlaneReading}

theorem accepted_openDir {disk : Option GovernancePolicyFile}
    (h : openDir controlPlane disk = .ok service) : service.state.Accepted := by
  obtain ⟨_, -, h⟩ := except_bind_ok.mp h
  cases disk with
  | none =>
    cases h
    exact GovernancePolicyFile.accepted_default
  | some file =>
    dsimp only at h
    split at h
    · cases h
    · obtain ⟨hvalid, h⟩ := except_check_ok.mp h
      cases h
      exact GovernancePolicyFile.accepted_of_validate hvalid

theorem accepted_step (hservice : service.state.Accepted) (event : GovernanceEvent) :
    (service.step event).state.Accepted := by
  cases event with
  | call controlPlane request persisted =>
    simp only [step, call]
    split
    · exact hservice
    · exact hservice
    · rename_i next hplan
      split
      · exact hservice.plan hplan
      · exact hservice
  | restart controlPlane =>
    simp only [step]
    split
    · rename_i opened hopened
      exact accepted_openDir hopened
    · exact hservice

/-- After any run every stored policy and override is one that the validators accept. -/
theorem accepted_of_reaches {controlPlane : ControlPlaneReading}
    {disk : Option GovernancePolicyFile} {start : OrganizationGovernanceService}
    (hopen : openDir controlPlane disk = .ok start)
    (hrun : Reaches step (fun _ _ => True) start service) : service.state.Accepted :=
  hrun.invariant (fun service => service.state.Accepted) (accepted_openDir hopen)
    fun _ event h _ => accepted_step h event

/-- What a project requests of its organization. -/
def requestedGovernance (service : OrganizationGovernanceService) (id : ProjectId)
    (organization : OrganizationGovernancePolicy) : GovernancePolicy :=
  (service.state.projectOverrides.getD id.asStr .default).governance.getD organization.governance

def requestedResources (service : OrganizationGovernanceService) (id : ProjectId)
    (organization : OrganizationGovernancePolicy) : ProjectResourceBudget :=
  (service.state.projectOverrides.getD id.asStr .default).resources.getD organization.resources

theorem resolveProjectOrganization_of_project {store : ControlPlaneState} {id : ProjectId}
    {project : Project} (hproject : store.project id = some project) :
    ControlPlaneReading.resolveProjectOrganization (.ok store) id = .ok project.organizationId := by
  show (match store.project id with | none => _ | some project => _) = _
  rw [hproject]
  rfl

/-- Below an organization's policy a project gets the meet of it and its request. -/
theorem resolveProjectPolicy_of_policy {store : ControlPlaneState} {id : ProjectId}
    {project : Project} {organization : OrganizationGovernancePolicy}
    (hproject : store.project id = some project)
    (hpolicy : service.state.organizationPolicies[project.organizationId.asStr]? =
      some organization) :
    ∃ constrained, service.resolveProjectPolicy (.ok store) id = .ok ⟨project.organizationId, id,
      constrainGovernancePolicy organization.governance
        (service.requestedGovernance id organization),
      constrainResourceBudget organization.resources (service.requestedResources id organization),
      constrained⟩ := by
  rw [resolveProjectPolicy, resolveProjectOrganization_of_project hproject, except_ok_bind]
  simp only [hpolicy]
  exact ⟨_, rfl⟩

theorem accepted_override (hservice : service.state.Accepted) (id : ProjectId) :
    (service.state.projectOverrides.getD id.asStr .default).Accepted := by
  rw [Std.ExtTreeMap.getD_eq_getD_getElem?]
  cases hoverride : service.state.projectOverrides[id.asStr]? with
  | none =>
    constructor
    · intro policy hpolicy
      cases hpolicy
    · intro budget hbudget
      cases hbudget
  | some projectOverride => exact hservice.overrides hoverride

theorem validate_requestedGovernance (hservice : service.state.Accepted) (id : ProjectId)
    {organization : OrganizationGovernancePolicy}
    (horganization : organization.governance.validate = .ok ()) :
    (service.requestedGovernance id organization).validate = .ok () := by
  have haccepted := (accepted_override hservice id).governance
  unfold requestedGovernance
  cases hgovernance : (service.state.projectOverrides.getD id.asStr .default).governance with
  | none => exact horganization
  | some governance => exact haccepted governance hgovernance

theorem validate_requestedResources (hservice : service.state.Accepted) (id : ProjectId)
    {organization : OrganizationGovernancePolicy}
    (horganization : organization.resources.validate = .ok organization.resources) :
    (service.requestedResources id organization).validate =
      .ok (service.requestedResources id organization) := by
  have haccepted := (accepted_override hservice id).resources
  unfold requestedResources
  cases hresources : (service.state.projectOverrides.getD id.asStr .default).resources with
  | none => exact horganization
  | some resources => exact haccepted resources hresources

/-- Where both halves are accepted, applying a policy applies both. -/
theorem applyProjectPolicy_of_accepted {id : ProjectId}
    {effective : EffectiveProjectGovernancePolicy}
    (hresolve : service.resolveProjectPolicy controlPlane id = .ok effective)
    (hgovernance : effective.governance.validate = .ok ())
    (hresources : effective.resources.validate = .ok effective.resources)
    (governance : GovernanceService) (governor : InMemoryResourceGovernor) :
    service.applyProjectPolicy controlPlane id governance governor =
      ((⟨governance.policies.insert id.asStr effective.governance⟩,
        ⟨governor.policies.insert id.asStr effective.resources⟩), .ok effective) := by
  have hset : governance.setProjectPolicy id.asStr effective.governance =
      .ok ⟨governance.policies.insert id.asStr effective.governance⟩ := by
    rw [GovernanceService.setProjectPolicy, hgovernance, except_ok_bind, if_neg id.trim_ne_empty]
    rfl
  have hbudget : governor.setProjectBudget id.asStr effective.resources =
      .ok ⟨governor.policies.insert id.asStr effective.resources⟩ := by
    rw [InMemoryResourceGovernor.setProjectBudget, if_neg id.trim_ne_empty, hresources]
    rfl
  rw [applyProjectPolicy, hresolve]
  simp only [hset, hbudget]

/-- While the policy of its organization forbids overrides, a project cannot set one. -/
theorem setProjectOverride_of_forbidden {store : ControlPlaneState} {id : ProjectId}
    {project : Project} {organization : OrganizationGovernancePolicy}
    (hproject : store.project id = some project)
    (hpolicy : service.state.organizationPolicies[project.organizationId.asStr]? =
      some organization) (hforbidden : organization.projectOverridesAllowed = false)
    (projectOverride : ProjectGovernanceOverride) (persisted : Bool) :
    ∃ error, service.call (.ok store) (.setProjectOverride id projectOverride) persisted =
      (service, .error error) := by
  have hplan : ∃ error, service.state.setProjectOverride (.ok store) id projectOverride =
      .error error := by
    rw [GovernancePolicyFile.setProjectOverride]
    cases projectOverride.validate with
    | error error => exact ⟨error, rfl⟩
    | ok _ =>
      refine ⟨.projectOverridesDisabled, ?_⟩
      rw [except_ok_bind, resolveProjectOrganization_of_project hproject, except_ok_bind, hpolicy,
        if_pos (by simp [hforbidden])]
  obtain ⟨error, hplan⟩ := hplan
  refine ⟨error, ?_⟩
  rw [call, GovernanceCall.plan, hplan]

/-- In every state of a run, the policy that a project gets is at most that of its
organization. It is the organization's own exactly where the project requests nothing
stricter, and so without an override. -/
theorem resolveProjectPolicy_bounded {reading : ControlPlaneReading}
    {disk : Option GovernancePolicyFile} {start : OrganizationGovernanceService}
    (hopen : openDir reading disk = .ok start)
    (hrun : Reaches step (fun _ _ => True) start service)
    {store : ControlPlaneState} {id : ProjectId} {project : Project}
    {organization : OrganizationGovernancePolicy}
    (hproject : store.project id = some project)
    (hpolicy : service.state.organizationPolicies[project.organizationId.asStr]? =
      some organization) :
    ∃ effective, service.resolveProjectPolicy (.ok store) id = .ok effective ∧
      (effective.organizationId = project.organizationId ∧ effective.projectId = id) ∧
      (effective.governance.Within organization.governance ∧
        effective.resources.Within organization.resources) ∧
      ((effective.governance = organization.governance ↔
          organization.governance.Within (service.requestedGovernance id organization)) ∧
        (effective.resources = organization.resources ↔
          organization.resources.Within (service.requestedResources id organization))) ∧
      (service.state.projectOverrides[id.asStr]? = none →
        effective.governance = organization.governance ∧
          effective.resources = organization.resources) ∧
      (organization.projectOverridesAllowed = false → ∀ projectOverride persisted, ∃ error,
        service.call (.ok store) (.setProjectOverride id projectOverride) persisted =
          (service, .error error)) ∧
      (effective.governance.validate = .ok () ∧
        effective.resources.validate = .ok effective.resources) ∧
      (∀ governance governor, service.applyProjectPolicy (.ok store) id governance governor =
        ((⟨governance.policies.insert id.asStr effective.governance⟩,
          ⟨governor.policies.insert id.asStr effective.resources⟩), .ok effective)) ∧
      constrainGovernancePolicy organization.governance effective.governance =
        effective.governance ∧
      constrainResourceBudget organization.resources effective.resources =
        effective.resources := by
  have haccepted := accepted_of_reaches hopen hrun
  obtain ⟨hgovernance, hresources⟩ := haccepted.policies hpolicy
  obtain ⟨constrained, hresolve⟩ := resolveProjectPolicy_of_policy hproject hpolicy
  have hgovernance := GovernancePolicy.validate_constrain hgovernance
    (validate_requestedGovernance haccepted id hgovernance)
  have hresources := ProjectResourceBudget.validate_constrain hresources
    (validate_requestedResources haccepted id hresources)
  refine ⟨_, hresolve, ⟨rfl, rfl⟩,
    ⟨GovernancePolicy.constrain_within, ProjectResourceBudget.constrain_within⟩,
    ⟨GovernancePolicy.constrain_eq_iff, ProjectResourceBudget.constrain_eq_iff⟩, ?_,
    setProjectOverride_of_forbidden hproject hpolicy, ⟨hgovernance, hresources⟩,
    applyProjectPolicy_of_accepted hresolve hgovernance hresources,
    GovernancePolicy.constrain_constrain, ProjectResourceBudget.constrain_constrain⟩
  intro hnone
  have hoverride : service.state.projectOverrides.getD id.asStr .default = .default := by
    rw [Std.ExtTreeMap.getD_eq_getD_getElem?, hnone]
    rfl
  have hgovernance : service.requestedGovernance id organization = organization.governance := by
    rw [requestedGovernance, hoverride]
    rfl
  have hresources : service.requestedResources id organization = organization.resources := by
    rw [requestedResources, hoverride]
    rfl
  rw [GovernancePolicy.constrain_eq_iff, ProjectResourceBudget.constrain_eq_iff, hgovernance,
    hresources]
  exact ⟨GovernancePolicy.within_self, ProjectResourceBudget.within_self⟩

/-! ### An override from before the organization forbade overrides -/

def governedOrganization : Organization :=
  ⟨.defaultOrganization, ⟨"Default", validateName_Default⟩, ⟨"default", Slug.valid_default _⟩, .active,
    .epoch⟩

def governedProject : Project :=
  ⟨.defaultProject, .defaultOrganization, ⟨"Default", validateName_Default⟩, ⟨"default", Slug.valid_default _⟩, .active,
    .epoch⟩

def governedStore : ControlPlaneState :=
  (ControlPlaneState.default.withOrganization governedOrganization).withProject governedProject

/-- Half of the queries that a project may run by default. -/
def halvedQueries : ProjectGovernanceOverride :=
  ⟨none, some { ProjectResourceBudget.default with maxConcurrentQueries := 16 }⟩

def forbidding : OrganizationGovernancePolicy := ⟨.default, .default, false⟩

def openedService : OrganizationGovernanceService := ⟨.default, none⟩

def forbid : GovernanceEvent :=
  .call (.ok governedStore) (.setOrganizationPolicy .defaultOrganization forbidding) true

def overrideBefore : GovernanceEvent :=
  .call (.ok governedStore) (.setProjectOverride .defaultProject halvedQueries) true

theorem forbid_openedService : (openedService.step forbid).state.organizationPolicies["default"]? =
    some forbidding := by rfl

theorem resolveProjectPolicy_bounded_forbidding :
    ∃ effective, (openedService.step forbid).resolveProjectPolicy (.ok governedStore)
        .defaultProject = .ok effective ∧
      effective.governance = forbidding.governance ∧
        effective.resources = forbidding.resources := by
  have hproject : governedStore.project .defaultProject = some governedProject := by rfl
  have hopen : openDir (.ok governedStore) none = .ok openedService := rfl
  have hrun : Reaches step (fun _ _ => True) openedService (openedService.step forbid) :=
    (Reaches.refl _).tail forbid trivial
  obtain ⟨effective, hresolve, -, -, -, hequal, -⟩ :=
    resolveProjectPolicy_bounded hopen hrun hproject forbid_openedService
  exact ⟨effective, hresolve, hequal (by rfl)⟩

/-- An override from before the policy still applies once the policy forbids overrides. -/
theorem not_resolve_eq_of_forbidden : ∃ service,
    (openDir (.ok governedStore) none = .ok openedService ∧
      Reaches step (fun _ _ => True) openedService service) ∧
      service.state.organizationPolicies[governedProject.organizationId.asStr]? =
        some forbidding ∧
      forbidding.projectOverridesAllowed = false ∧
      ∃ effective, service.resolveProjectPolicy (.ok governedStore) governedProject.id =
        .ok effective ∧ effective.resources ≠ forbidding.resources := by
  have hrun : Reaches step (fun _ _ => True) openedService
      ((openedService.step overrideBefore).step forbid) :=
    ((Reaches.refl _).tail overrideBefore trivial).tail forbid trivial
  exact ⟨_, ⟨rfl, hrun⟩, by rfl, rfl, _, rfl, by decide⟩

end OrganizationGovernanceService

end Ketebe
