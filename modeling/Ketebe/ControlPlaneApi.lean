import Ketebe.ControlPlaneFiles

/-!
The control-plane API. Each call opens the store and the membership services that
it needs, checks who asks, and replaces the files that it changes. A call is a
task, so that reads and writes of several calls can interleave.
-/
namespace Ketebe

open Lib.WholeFiles Lib.WholeFiles.Task

inductive AuthorizationError where
  | undiscoverable
  | missingProject
  | ownershipConflict
  | io
  | unsupportedVersion (version : ℕ)
  | resolver
  deriving DecidableEq, Repr

inductive ControlPlaneApiError where
  | invalidInput (message : String)
  | undiscoverable
  | forbidden
  | conflict (message : String)
  | resourceNotDeleting
  | invalidLifecycleTransition
  | projectHasCollections
  | store (error : ControlPlaneStoreError)
  | organizationMembership (error : MembershipError)
  | projectMembership (error : MembershipError)
  | collectionCatalog (error : CollectionNamespaceError)
  | authorization (error : AuthorizationError)
  deriving DecidableEq

structure CreateOrganizationInput where
  id : String
  name : String
  slug : String

structure UpdateOrganizationInput where
  name : String
  slug : String
  lifecycle : ResourceLifecycleState

structure CreateProjectInput where
  id : String
  name : String
  slug : String

structure UpdateProjectInput where
  name : String
  slug : String
  lifecycle : ResourceLifecycleState

namespace ControlPlane

abbrev ApiTask (ε α : Type) := Task Content Change ε α

/-! ### Stores and services -/

def openStore {ε : Type} : ApiTask ε ControlPlaneState := .read .store pure

/-- Writes the instance's state with the change that the checks allow, and goes
on with the changed state. -/
def commit (store : ControlPlaneState) (plan : Except ControlPlaneStoreError ControlPlaneChange) :
    ApiTask ControlPlaneStoreError ControlPlaneState := do
  let change ← lift plan
  .persist .store store change fun succeeded =>
    if succeeded then pure (store.apply change) else throw .io

/-- An open membership service. -/
structure MembershipService (Role : Type) where
  controlPlane : ControlPlaneState
  state : MembershipFile Role

abbrev OrganizationMembershipService := MembershipService OrganizationRole

abbrev ProjectMembershipService := MembershipService ProjectRole

def openOrganizationMemberships : ApiTask ControlPlaneApiError OrganizationMembershipService := do
  let controlPlane ← openStore
  .read .organizationMembers fun file => do
    let state ← lift (file.openFile.mapError .organizationMembership)
    pure ⟨controlPlane, state⟩

def openProjectMemberships : ApiTask ControlPlaneApiError ProjectMembershipService := do
  let controlPlane ← openStore
  .read .projectMembers fun file => do
    let state ← lift (file.openFile.mapError .projectMembership)
    pure ⟨controlPlane, state⟩

/-! What both services do, given how they write and whether the actor may act. -/

namespace MembershipService

variable {Role : Type} [MembershipRole Role] (service : MembershipService Role)
  (persist : MembershipChange Role → ApiTask MembershipError Unit)
  (authorized : Except MembershipError Unit) (resourceId subject : String)

def roleOf (principal : Principal) : Except MembershipError Role :=
  match (service.state.members resourceId)[principal.subject]? with
  | none => .error .undiscoverable
  | some membership => .ok membership.role

def bootstrap : ApiTask MembershipError Unit := do
  let membership ← lift (service.state.bootstrapOwner resourceId subject)
  persist (.insert membership)

def create (role : Role) : ApiTask MembershipError (Membership Role) := do
  lift authorized
  let membership ← lift (service.state.createMembership resourceId subject role)
  persist (.insert membership)
  pure membership

def update (role : Role) : ApiTask MembershipError (Membership Role) := do
  lift authorized
  let updated ← lift (service.state.updateRole resourceId subject role)
  persist (.insert updated)
  pure updated

def remove : ApiTask MembershipError Unit := do
  lift authorized
  let _ ← lift (service.state.removeMembership resourceId subject)
  persist (.remove resourceId subject)

def lookup : Except MembershipError (Membership Role) := do
  authorized
  match (service.state.members resourceId)[subject]? with
  | some membership => .ok membership
  | none => .error .undiscoverable

def purge : ApiTask MembershipError Unit :=
  if resourceId ∈ service.state.memberships then persist (.purge resourceId) else pure ()

/-- Changes the role of a member and adds one that is not. -/
def upsert (reads : Except MembershipError Unit) (role : Role) :
    ApiTask MembershipError (Membership Role) :=
  match service.lookup reads resourceId subject with
  | .ok _ => service.update persist authorized resourceId subject role
  | .error .undiscoverable => service.create persist authorized resourceId subject role
  | .error error => throw error

end MembershipService

namespace OrganizationMembershipService

variable (service : OrganizationMembershipService)

def authorize (principal : Principal) (id : OrganizationId) (action : OrganizationAction) :
    Except MembershipError Unit := do
  if (service.controlPlane.organization id).isNone then .error .undiscoverable
  else
    let role ← service.roleOf id.asStr principal
    if role.allows action then .ok () else .error .undiscoverable

def persist (change : MembershipChange OrganizationRole) : ApiTask MembershipError Unit :=
  .persist .organizationMembers service.state change fun succeeded =>
    if succeeded then pure () else throw .io

def bootstrapOwner (id : OrganizationId) (subject : String) : ApiTask MembershipError Unit :=
  if (service.controlPlane.organization id).isNone then throw .resourceNotFound
  else if trim subject = "" then throw .invalidSubject
  else service.bootstrap (persist service) id.asStr subject

def upsertMembership (actor : Principal) (id : OrganizationId) (subject : String)
    (role : OrganizationRole) : ApiTask MembershipError (Membership OrganizationRole) :=
  service.upsert (persist service) (authorize service actor id .membershipWrite) id.asStr subject
    (authorize service actor id .membershipRead) role

def removeMembership (actor : Principal) (id : OrganizationId) (subject : String) :
    ApiTask MembershipError Unit :=
  service.remove (persist service) (authorize service actor id .membershipWrite) id.asStr subject

def purgeOrganization (id : OrganizationId) : ApiTask MembershipError Unit :=
  service.purge (persist service) id.asStr

end OrganizationMembershipService

namespace ProjectMembershipService

variable (service : ProjectMembershipService)

def authorize (principal : Principal) (id : ProjectId) (action : AuthorizationAction) :
    Except MembershipError Unit :=
  match service.controlPlane.project id with
  | none => .error .undiscoverable
  | some project => do
      if project.lifecycle ≠ .active then .error .undiscoverable
      else
        let role ← service.roleOf id.asStr principal
        if role.allows action then .ok () else .error .undiscoverable

def persist (change : MembershipChange ProjectRole) : ApiTask MembershipError Unit :=
  .persist .projectMembers service.state change fun succeeded =>
    if succeeded then pure () else throw .io

def bootstrapOwner (id : ProjectId) (subject : String) : ApiTask MembershipError Unit :=
  if (service.controlPlane.project id).isNone then throw .resourceNotFound
  else service.bootstrap (persist service) id.asStr subject

def upsertMembership (actor : Principal) (id : ProjectId) (subject : String)
    (role : ProjectRole) : ApiTask MembershipError (Membership ProjectRole) :=
  service.upsert (persist service) (authorize service actor id .projectAdmin) id.asStr subject
    (authorize service actor id .projectAdmin) role

def removeMembership (actor : Principal) (id : ProjectId) (subject : String) :
    ApiTask MembershipError Unit :=
  service.remove (persist service) (authorize service actor id .projectAdmin) id.asStr subject

def purgeProject (id : ProjectId) : ApiTask MembershipError Unit :=
  service.purge (persist service) id.asStr

end ProjectMembershipService

/-! ### Authorization -/

def isOk {ε ε' α : Type} (task : ApiTask ε α) : ApiTask ε' Bool :=
  (do let _ ← task; pure true : ApiTask ε Bool).handle fun _ => pure false

/-- `project_role_allows_action` of the authorization service. -/
def roleAllowsAction : ProjectRole → AuthorizationAction → Bool
  | .owner, _ => true
  | .editor, action => action ≠ .projectAdmin
  | .reader, action => action = .collectionDiscover ∨ action = .collectionRead

/-- `AuthorizationService::required`, which reads the policies and the store. -/
def openAuthorization : ApiTask AuthorizationError Unit :=
  .read .authorization fun file => do
    if file.version ≠ 1 then throw (.unsupportedVersion file.version)
    else
      let _ ← openStore
      pure ()

def authorizeProject (principal : Principal) (action : AuthorizationAction) (id : ProjectId) :
    ApiTask AuthorizationError Unit := do
  let controlPlane ← openStore
  match controlPlane.project id with
  | none => throw .undiscoverable
  | some project =>
      if project.lifecycle ≠ .active then throw .undiscoverable
      else if principal.kind = .workloadCredential then
        if principal.workloadProjectId ≠ some id.asStr then throw .undiscoverable
        else if ((principal.workloadProjectRole.map fun role =>
            roleAllowsAction role action).getD true) then pure ()
        else throw .undiscoverable
      else .read .projectMembers fun file => do
        let state ← lift (file.openFile.mapError fun _ => .resolver)
        lift ((ProjectMembershipService.authorize ⟨controlPlane, state⟩ principal id action).mapError
          fun _ => .undiscoverable)

def organizationAuthorized (principal : Principal) (id : OrganizationId)
    (action : OrganizationAction) : ApiTask ControlPlaneApiError Bool := do
  let service ← openOrganizationMemberships
  pure (OrganizationMembershipService.authorize service principal id action).isOk

def authorizeOrganization (principal : Principal) (id : OrganizationId)
    (action : OrganizationAction) : ApiTask ControlPlaneApiError Unit := do
  let authorized ← organizationAuthorized principal id action
  if authorized then pure () else throw .undiscoverable

def authorizeProjectManagement (principal : Principal) (project : Project) :
    ApiTask ControlPlaneApiError Unit := do
  let authorized ← organizationAuthorized principal project.organizationId .organizationUpdate
  if authorized then pure ()
  else
    openAuthorization.mapError .authorization
    let allowed ← isOk (authorizeProject principal .projectAdmin project.id)
    if allowed then pure () else throw .undiscoverable

/-! ### Calls -/

def validateLifecycleTransition (current next : ResourceLifecycleState) :
    Except ControlPlaneApiError Unit :=
  if current = .deleting ∧ next ≠ .deleting then .error .invalidLifecycleTransition else .ok ()

def mapStoreError : ControlPlaneStoreError → ControlPlaneApiError
  | .organizationNotFound _ | .projectNotFound _ => .undiscoverable
  | .io => .store .io
  | .domain message => .store (.domain message)
  | .inconsistentDefaultBootstrap => .store .inconsistentDefaultBootstrap
  | .corrupt message => .store (.corrupt message)
  | error => .conflict error.display

def checkInput {α : Type} (result : Except ControlPlaneDomainError α) :
    ApiTask ControlPlaneApiError α :=
  lift (result.mapError fun error => .invalidInput error.display)

def found {α : Type} (value : Option α) : ApiTask ControlPlaneApiError α :=
  match value with
  | some value => pure value
  | none => throw .undiscoverable

/-- Undoes a creation, whatever comes of it, and fails. -/
def rollBack {α : Type} (store : ControlPlaneState)
    (plan : Except ControlPlaneStoreError ControlPlaneChange) (error : ControlPlaneApiError) :
    ApiTask ControlPlaneApiError α := do
  let _ ← isOk (commit store plan)
  throw error

def createOrganization (principal : Principal) (input : CreateOrganizationInput) (now : ℕ) :
    ApiTask ControlPlaneApiError Organization := do
  if principal.kind = .workloadCredential then throw .forbidden
  else
    let id ← checkInput (OrganizationId.new input.id)
    let timestamps ← checkInput (ResourceTimestamps.new now now)
    let organization ← checkInput (Organization.new id input.name input.slug .active timestamps)
    let store ← openStore
    let created ← (commit store (store.createOrganization organization)).mapError mapStoreError
    let memberships ← openOrganizationMemberships
    (OrganizationMembershipService.bootstrapOwner memberships id principal.subject).handle
      fun error => rollBack created (created.deleteOrganization id) (.organizationMembership error)
    pure organization

def updateOrganization (principal : Principal) (id : OrganizationId)
    (input : UpdateOrganizationInput) (now : ℕ) : ApiTask ControlPlaneApiError Organization := do
  authorizeOrganization principal id .organizationUpdate
  let store ← openStore
  let current ← found (store.organization id)
  lift (validateLifecycleTransition current.lifecycle input.lifecycle)
  let timestamps ← checkInput (ResourceTimestamps.new current.timestamps.createdAtUnix now)
  let updated ← checkInput
    (Organization.new current.id input.name input.slug input.lifecycle timestamps)
  let _ ← (commit store (store.updateOrganization updated)).mapError mapStoreError
  pure updated

def deleteOrganization (principal : Principal) (id : OrganizationId) :
    ApiTask ControlPlaneApiError Unit := do
  authorizeOrganization principal id .organizationUpdate
  let store ← openStore
  let organization ← found (store.organization id)
  if organization.lifecycle ≠ .deleting then throw .resourceNotDeleting
  else
    let _ ← (commit store (store.deleteOrganization id)).mapError mapStoreError
    let memberships ← openOrganizationMemberships
    (OrganizationMembershipService.purgeOrganization memberships id).mapError
      .organizationMembership

def createProject (principal : Principal) (organizationId : OrganizationId)
    (input : CreateProjectInput) (now : ℕ) : ApiTask ControlPlaneApiError Project := do
  authorizeOrganization principal organizationId .organizationUpdate
  let store ← openStore
  let organization ← found (store.organization organizationId)
  if organization.lifecycle ≠ .active then throw (.conflict "organization is not active")
  else
    let id ← lift ((ProjectId.new input.id).mapError fun error => .invalidInput error.display)
    let timestamps ← checkInput (ResourceTimestamps.new now now)
    let project ← checkInput
      (Project.new id organizationId input.name input.slug .active timestamps)
    let created ← (commit store (store.createProject project)).mapError mapStoreError
    let memberships ← openProjectMemberships
    (ProjectMembershipService.bootstrapOwner memberships id principal.subject).handle
      fun error => rollBack created (created.deleteProject id) (.projectMembership error)
    pure project

def updateProject (principal : Principal) (id : ProjectId) (input : UpdateProjectInput)
    (now : ℕ) : ApiTask ControlPlaneApiError Project := do
  let store ← openStore
  let current ← found (store.project id)
  authorizeProjectManagement principal current
  lift (validateLifecycleTransition current.lifecycle input.lifecycle)
  let timestamps ← checkInput (ResourceTimestamps.new current.timestamps.createdAtUnix now)
  let updated ← checkInput
    (Project.new current.id current.organizationId input.name input.slug input.lifecycle timestamps)
  let _ ← (commit store (store.updateProject updated)).mapError mapStoreError
  pure updated

/-- Fails while the catalog lists a collection of the project. -/
def ensureNoCollections (id : ProjectId) : ApiTask ControlPlaneApiError Unit :=
  .read .collections fun disk => do
    let catalog ← lift ((CollectionNamespaceCatalog.openFile disk).mapError .collectionCatalog)
    let listed ← lift ((catalog.listProject id).mapError .collectionCatalog)
    if listed.isEmpty then pure () else throw .projectHasCollections

def deleteProject (principal : Principal) (id : ProjectId) :
    ApiTask ControlPlaneApiError Unit := do
  let store ← openStore
  let project ← found (store.project id)
  authorizeProjectManagement principal project
  if project.lifecycle ≠ .deleting then throw .resourceNotDeleting
  else
    ensureNoCollections id
    let _ ← (commit store (store.deleteProject id)).mapError mapStoreError
    let memberships ← openProjectMemberships
    (ProjectMembershipService.purgeProject memberships id).mapError .projectMembership

def upsertOrganizationMembership (principal : Principal) (id : OrganizationId) (subject : String)
    (role : OrganizationRole) : ApiTask ControlPlaneApiError (Membership OrganizationRole) := do
  let service ← openOrganizationMemberships
  (OrganizationMembershipService.upsertMembership service principal id subject role).mapError
    .organizationMembership

def removeOrganizationMembership (principal : Principal) (id : OrganizationId)
    (subject : String) : ApiTask ControlPlaneApiError Unit := do
  let service ← openOrganizationMemberships
  (OrganizationMembershipService.removeMembership service principal id subject).mapError
    .organizationMembership

/-- The audit of a refusal reads the store once more. -/
def auditRefusal {α : Type} (error : MembershipError) : ApiTask ControlPlaneApiError α := do
  let _ ← openStore
  throw (.projectMembership error)

def upsertProjectMembership (principal : Principal) (id : ProjectId) (subject : String)
    (role : ProjectRole) : ApiTask ControlPlaneApiError (Membership ProjectRole) := do
  let service ← openProjectMemberships
  (ProjectMembershipService.upsertMembership service principal id subject role).handle auditRefusal

def removeProjectMembership (principal : Principal) (id : ProjectId) (subject : String) :
    ApiTask ControlPlaneApiError Unit := do
  let service ← openProjectMemberships
  (ProjectMembershipService.removeMembership service principal id subject).handle auditRefusal

/-- A call that changes the control plane; `now` is the time of its clock. -/
inductive Call where
  | createOrganization (principal : Principal) (input : CreateOrganizationInput) (now : ℕ)
  | updateOrganization (principal : Principal) (id : OrganizationId)
      (input : UpdateOrganizationInput) (now : ℕ)
  | deleteOrganization (principal : Principal) (id : OrganizationId)
  | createProject (principal : Principal) (organizationId : OrganizationId)
      (input : CreateProjectInput) (now : ℕ)
  | updateProject (principal : Principal) (id : ProjectId) (input : UpdateProjectInput) (now : ℕ)
  | deleteProject (principal : Principal) (id : ProjectId)
  | upsertOrganizationMembership (principal : Principal) (id : OrganizationId) (subject : String)
      (role : OrganizationRole)
  | removeOrganizationMembership (principal : Principal) (id : OrganizationId) (subject : String)
  | upsertProjectMembership (principal : Principal) (id : ProjectId) (subject : String)
      (role : ProjectRole)
  | removeProjectMembership (principal : Principal) (id : ProjectId) (subject : String)

/-- The call with the changes that its success acknowledges. -/
def Call.task : Call → ApiTask ControlPlaneApiError (List (Item × ItemValue))
  | .createOrganization principal input now => do
      let organization ← ControlPlane.createOrganization principal input now
      let id := organization.id.asStr
      pure [(.organization id, .organization (some organization)),
        (.organizationMember id principal.subject,
          .organizationMember (some ⟨id, principal.subject, .owner⟩))]
  | .updateOrganization principal id input now => do
      let organization ← ControlPlane.updateOrganization principal id input now
      pure [(.organization organization.id.asStr, .organization (some organization))]
  | .deleteOrganization principal id => do
      ControlPlane.deleteOrganization principal id
      pure [(.organization id.asStr, .organization none)]
  | .createProject principal organizationId input now => do
      let project ← ControlPlane.createProject principal organizationId input now
      let id := project.id.asStr
      pure [(.project id, .project (some project)),
        (.projectMember id principal.subject,
          .projectMember (some ⟨id, principal.subject, .owner⟩))]
  | .updateProject principal id input now => do
      let project ← ControlPlane.updateProject principal id input now
      pure [(.project project.id.asStr, .project (some project))]
  | .deleteProject principal id => do
      ControlPlane.deleteProject principal id
      pure [(.project id.asStr, .project none)]
  | .upsertOrganizationMembership principal id subject role => do
      let membership ← ControlPlane.upsertOrganizationMembership principal id subject role
      pure [(.organizationMember id.asStr subject, .organizationMember (some membership))]
  | .removeOrganizationMembership principal id subject => do
      ControlPlane.removeOrganizationMembership principal id subject
      pure [(.organizationMember id.asStr subject, .organizationMember none)]
  | .upsertProjectMembership principal id subject role => do
      let membership ← ControlPlane.upsertProjectMembership principal id subject role
      pure [(.projectMember id.asStr subject, .projectMember (some membership))]
  | .removeProjectMembership principal id subject => do
      ControlPlane.removeProjectMembership principal id subject
      pure [(.projectMember id.asStr subject, .projectMember none)]

end ControlPlane

end Ketebe
