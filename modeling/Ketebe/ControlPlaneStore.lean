import Ketebe.ControlPlane
import Std.Data.ExtTreeMap

/-!
The control-plane store. Organizations and projects live in one file, which an
operation replaces after its checks. The checks keep each id and slug unique and
never leave a project without its organization.
-/
namespace Ketebe

open Lib.ByteCodec

structure ControlPlaneState where
  organizations : Std.ExtTreeMap String Organization compare
  projects : Std.ExtTreeMap String Project compare

inductive ControlPlaneStoreError where
  | io
  | organizationAlreadyExists (id : OrganizationId)
  | organizationNotFound (id : OrganizationId)
  | organizationSlugConflict (slug : String)
  | organizationHasProjects (id : OrganizationId)
  | projectAlreadyExists (id : ProjectId)
  | projectNotFound (id : ProjectId)
  | projectSlugConflict (organizationId : OrganizationId) (slug : String)
  | projectOwnershipImmutable (projectId : ProjectId) (expected actual : OrganizationId)
  | domain (message : String)
  | inconsistentDefaultBootstrap
  | corrupt (message : String)
  deriving DecidableEq

/-- The texts of the source's `Display`; that of an I/O error ends in the system's own. -/
def ControlPlaneStoreError.display : ControlPlaneStoreError → String
  | .io => "control-plane store I/O error: "
  | .organizationAlreadyExists id => "organization already exists: " ++ id.asStr
  | .organizationNotFound id => "organization not found: " ++ id.asStr
  | .organizationSlugConflict slug => "organization slug already exists: " ++ slug
  | .organizationHasProjects id => "organization still owns projects: " ++ id.asStr
  | .projectAlreadyExists id => "project already exists: " ++ id.asStr
  | .projectNotFound id => "project not found: " ++ id.asStr
  | .projectSlugConflict organizationId slug =>
      "project slug already exists in organization " ++ organizationId.asStr ++ ": " ++ slug
  | .projectOwnershipImmutable projectId expected actual =>
      "project " ++ projectId.asStr ++ " ownership is immutable: expected " ++ expected.asStr ++
        ", got " ++ actual.asStr
  | .domain message => "invalid control-plane domain value: " ++ message
  | .inconsistentDefaultBootstrap =>
      "default Organization/Project bootstrap state is incomplete or inconsistent"
  | .corrupt message => "corrupt control-plane store: " ++ message

/-- What an operation does to the copy of the state that it writes. -/
inductive ControlPlaneChange where
  | insertOrganization (organization : Organization)
  | insertProject (project : Project)
  | insertDefaults (organization : Organization) (project : Project)
  | removeOrganization (id : OrganizationId)
  | removeProject (id : ProjectId)

namespace ControlPlaneState

def default : ControlPlaneState := ⟨∅, ∅⟩

def withOrganization (state : ControlPlaneState) (organization : Organization) :
    ControlPlaneState :=
  { state with organizations := state.organizations.insert organization.id.asStr organization }

def withProject (state : ControlPlaneState) (project : Project) : ControlPlaneState :=
  { state with projects := state.projects.insert project.id.asStr project }

def apply (state : ControlPlaneState) : ControlPlaneChange → ControlPlaneState
  | .insertOrganization organization => state.withOrganization organization
  | .insertProject project => state.withProject project
  | .insertDefaults organization project =>
      (state.withOrganization organization).withProject project
  | .removeOrganization id => { state with organizations := state.organizations.erase id.asStr }
  | .removeProject id => { state with projects := state.projects.erase id.asStr }

def organization (state : ControlPlaneState) (id : OrganizationId) : Option Organization :=
  state.organizations[id.asStr]?

def project (state : ControlPlaneState) (id : ProjectId) : Option Project :=
  state.projects[id.asStr]?

def resolveProjectOrganization (state : ControlPlaneState) (id : ProjectId) :
    Except ControlPlaneStoreError Organization :=
  match state.project id with
  | none => .error (.projectNotFound id)
  | some project =>
      match state.organization project.organizationId with
      | none => .error (.corrupt "project references missing organization")
      | some organization => .ok organization

def ensureOrganizationSlugUnique (state : ControlPlaneState) (organization : Organization)
    (exceptId : Option String) : Except ControlPlaneStoreError Unit :=
  if state.organizations.toList.any fun entry =>
      entry.2.slug.asStr = organization.slug.asStr ∧ some entry.2.id.asStr ≠ exceptId then
    .error (.organizationSlugConflict organization.slug.asStr)
  else .ok ()

def ensureProjectParentExists (state : ControlPlaneState) (project : Project) :
    Except ControlPlaneStoreError Unit :=
  if project.organizationId.asStr ∈ state.organizations then .ok ()
  else .error (.organizationNotFound project.organizationId)

def ensureProjectSlugUnique (state : ControlPlaneState) (project : Project)
    (exceptId : Option String) : Except ControlPlaneStoreError Unit :=
  if state.projects.toList.any fun entry =>
      entry.2.organizationId = project.organizationId ∧
        entry.2.slug.asStr = project.slug.asStr ∧ some entry.2.id.asStr ≠ exceptId then
    .error (.projectSlugConflict project.organizationId project.slug.asStr)
  else .ok ()

def createOrganization (state : ControlPlaneState) (organization : Organization) :
    Except ControlPlaneStoreError ControlPlaneChange := do
  if organization.id.asStr ∈ state.organizations then
    .error (.organizationAlreadyExists organization.id)
  else
    state.ensureOrganizationSlugUnique organization none
    pure (.insertOrganization organization)

def updateOrganization (state : ControlPlaneState) (organization : Organization) :
    Except ControlPlaneStoreError ControlPlaneChange := do
  if organization.id.asStr ∉ state.organizations then
    .error (.organizationNotFound organization.id)
  else
    state.ensureOrganizationSlugUnique organization (some organization.id.asStr)
    pure (.insertOrganization organization)

def createProject (state : ControlPlaneState) (project : Project) :
    Except ControlPlaneStoreError ControlPlaneChange := do
  if project.id.asStr ∈ state.projects then .error (.projectAlreadyExists project.id)
  else
    state.ensureProjectParentExists project
    state.ensureProjectSlugUnique project none
    pure (.insertProject project)

def updateProject (state : ControlPlaneState) (project : Project) :
    Except ControlPlaneStoreError ControlPlaneChange :=
  match state.project project.id with
  | none => .error (.projectNotFound project.id)
  | some existing =>
      if existing.organizationId ≠ project.organizationId then
        .error (.projectOwnershipImmutable project.id existing.organizationId
          project.organizationId)
      else do
        state.ensureProjectParentExists project
        state.ensureProjectSlugUnique project (some project.id.asStr)
        pure (.insertProject project)

def deleteProject (state : ControlPlaneState) (id : ProjectId) :
    Except ControlPlaneStoreError ControlPlaneChange :=
  if id.asStr ∈ state.projects then .ok (.removeProject id) else .error (.projectNotFound id)

def deleteOrganization (state : ControlPlaneState) (id : OrganizationId) :
    Except ControlPlaneStoreError ControlPlaneChange :=
  if state.projects.toList.any fun entry => entry.2.organizationId = id then
    .error (.organizationHasProjects id)
  else if id.asStr ∈ state.organizations then .ok (.removeOrganization id)
  else .error (.organizationNotFound id)

def liftDomain {α : Type} (result : Except ControlPlaneDomainError α) :
    Except ControlPlaneStoreError α :=
  result.mapError fun error => .domain error.display

/-- The default organization and project, unless both exist. -/
def bootstrapDefault (state : ControlPlaneState) (createdAtUnix : ℕ) :
    Except ControlPlaneStoreError (Option ControlPlaneChange) :=
  match state.organization .defaultOrganization, state.project .defaultProject with
  | some organization, some project =>
      if organization.slug.asStr ≠ "default" ∨
          project.organizationId ≠ .defaultOrganization ∨ project.slug.asStr ≠ "default" then
        .error .inconsistentDefaultBootstrap
      else .ok none
  | none, none => do
      let timestamps ← liftDomain (ResourceTimestamps.new createdAtUnix createdAtUnix)
      let organization ← liftDomain
        (Organization.new .defaultOrganization "Default" "default" .active timestamps)
      let project ← liftDomain
        (Project.new .defaultProject .defaultOrganization "Default" "default" .active timestamps)
      pure (some (.insertDefaults organization project))
  | _, _ => .error .inconsistentDefaultBootstrap

/-! ### Parents -/

/-- Every project's organization exists. -/
def Parented (state : ControlPlaneState) : Prop :=
  ∀ (key : String) (project : Project), state.projects[key]? = some project →
    project.organizationId.asStr ∈ state.organizations

section Parented

variable {state : ControlPlaneState} {change : ControlPlaneChange}

theorem Parented.withOrganization (h : state.Parented) (organization : Organization) :
    (state.withOrganization organization).Parented := fun key project hproject =>
  Std.ExtTreeMap.mem_insert.mpr (.inr (h key project hproject))

theorem Parented.withProject {project : Project} (h : state.Parented)
    (hparent : project.organizationId.asStr ∈ state.organizations) :
    (state.withProject project).Parented := by
  intro key other hother
  have hother : (state.projects.insert project.id.asStr project)[key]? = some other := hother
  rw [Std.ExtTreeMap.getElem?_insert] at hother
  split at hother
  · exact Option.some.inj hother ▸ hparent
  · exact h key other hother

theorem Parented.removeProject (h : state.Parented) (id : ProjectId) :
    (state.apply (.removeProject id)).Parented := by
  intro key other hother
  have hother : (state.projects.erase id.asStr)[key]? = some other := hother
  rw [Std.ExtTreeMap.getElem?_erase] at hother
  split at hother
  · cases hother
  · exact h key other hother

theorem organizationId_eq_of_asStr {id other : OrganizationId} (h : id.asStr = other.asStr) :
    id = other := by
  obtain ⟨value, hvalid⟩ := id
  cases h
  rfl

theorem Parented.removeOrganization {id : OrganizationId} (h : state.Parented)
    (hnone : ∀ (key : String) (project : Project), state.projects[key]? = some project →
      project.organizationId ≠ id) : (state.apply (.removeOrganization id)).Parented := by
  intro key project hproject
  refine Std.ExtTreeMap.mem_erase.mpr ⟨fun hsame => ?_, h key project hproject⟩
  exact hnone key project hproject (organizationId_eq_of_asStr (compare_eq_iff_eq.mp hsame).symm)

theorem parent_of_ensure {project : Project} {result : Unit}
    (h : state.ensureProjectParentExists project = .ok result) :
    project.organizationId.asStr ∈ state.organizations := by
  unfold ensureProjectParentExists at h
  split at h
  · assumption
  · cases h

/-! ### What the operations change -/

theorem createOrganization_ok {organization : Organization}
    (h : state.createOrganization organization = .ok change) :
    change = .insertOrganization organization ∧
      organization.id.asStr ∉ state.organizations := by
  unfold createOrganization at h
  split at h
  · cases h
  · rename_i hnew
    obtain ⟨_, -, h⟩ := except_bind_ok.mp h
    cases h
    exact ⟨rfl, hnew⟩

theorem updateOrganization_ok {organization : Organization}
    (h : state.updateOrganization organization = .ok change) :
    change = .insertOrganization organization := by
  unfold updateOrganization at h
  split at h
  · cases h
  · obtain ⟨_, -, h⟩ := except_bind_ok.mp h
    cases h
    rfl

theorem createProject_ok {project : Project} (h : state.createProject project = .ok change) :
    change = .insertProject project ∧ project.id.asStr ∉ state.projects ∧
      project.organizationId.asStr ∈ state.organizations := by
  unfold createProject at h
  split at h
  · cases h
  · rename_i hnew
    obtain ⟨_, hparent, h⟩ := except_bind_ok.mp h
    obtain ⟨_, -, h⟩ := except_bind_ok.mp h
    cases h
    exact ⟨rfl, hnew, parent_of_ensure hparent⟩

theorem updateProject_ok {project : Project} (h : state.updateProject project = .ok change) :
    change = .insertProject project ∧
      project.organizationId.asStr ∈ state.organizations := by
  unfold updateProject at h
  split at h
  · cases h
  · split at h
    · cases h
    · obtain ⟨_, hparent, h⟩ := except_bind_ok.mp h
      obtain ⟨_, -, h⟩ := except_bind_ok.mp h
      cases h
      exact ⟨rfl, parent_of_ensure hparent⟩

theorem deleteProject_ok {id : ProjectId} (h : state.deleteProject id = .ok change) :
    change = .removeProject id := by
  unfold deleteProject at h
  split at h
  · cases h
    rfl
  · cases h

theorem deleteOrganization_ok {id : OrganizationId} (h : state.deleteOrganization id = .ok change) :
    change = .removeOrganization id ∧ ∀ (key : String) (project : Project),
      state.projects[key]? = some project → project.organizationId ≠ id := by
  unfold deleteOrganization at h
  split at h
  · cases h
  · rename_i hnone
    split at h
    · cases h
      refine ⟨rfl, fun key project hproject hsame => hnone ?_⟩
      simp only [List.any_eq_true, decide_eq_true_eq, Prod.exists]
      exact ⟨key, project, Std.ExtTreeMap.mem_toList_iff_getElem?_eq_some.mpr hproject, hsame⟩
    · cases h

end Parented

end ControlPlaneState

end Ketebe
