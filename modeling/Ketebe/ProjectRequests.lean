import Ketebe.DataPlaneRequest
import Ketebe.SecurityStores

/-!
Requests that create and delete the projects and their collections, side by side. A
request is in one phase after the other; between two of them it holds no lock. Each
operation of the catalog, each authorization check, each change of the policies or the
members and each change of the control plane is one phase. No operation fails for want of
the disk.
-/
namespace Ketebe.ControlPlane

open Lib.Durable Lib.Durable.Program Lib.WholeFiles Lib.WholeFiles.Task

/-! ### The sections of the calls -/

/-- Changes the store as it is. -/
def changeStore (plan : ControlPlaneState → Except ControlPlaneStoreError ControlPlaneChange) :
    ApiTask ControlPlaneStoreError Unit := do
  let store ← openStore
  let _ ← commit store (plan store)
  pure ()

/-- The project that `create_project` inserts. -/
def newProject (organizationId : OrganizationId) (input : CreateProjectInput) (now : ℕ) :
    ApiTask ControlPlaneApiError Project := do
  let store ← openStore
  let organization ← found (store.organization organizationId)
  if organization.lifecycle ≠ .active then throw (.conflict "organization is not active")
  else
    let id ← lift ((ProjectId.new input.id).mapError fun error => .invalidInput error.display)
    let timestamps ← checkInput (ResourceTimestamps.new now now)
    checkInput (Project.new id organizationId input.name input.slug .active timestamps)

def purgeMembers (id : ProjectId) : ApiTask ControlPlaneApiError Unit := do
  let memberships ← openProjectMemberships
  (ProjectMembershipService.purgeProject memberships id).mapError .projectMembership

/-- `claim_collection` after its check. -/
def insertClaim (projectId collectionId : String) : ApiTask AuthorizationError ClaimOutcome := do
  let file ← openPolicies
  match file.collections[collectionPolicyKey projectId collectionId]? with
  | some existing =>
      if existing.projectId = projectId then pure .existing else throw .ownershipConflict
  | none => do
      persistPolicies file
        (.putCollection (collectionPolicyKey projectId collectionId) ⟨projectId, ∅⟩)
      pure .inserted

/-- `remove_collection` after its check. -/
def removePolicies (principal : Principal) (collectionId : String) :
    ApiTask AuthorizationError Unit := do
  let projectId ← lift (pinnedProject principal)
  let file ← openPolicies
  persistPolicies file (.removeCollections (removedKeys file projectId collectionId))

/-- `resolve_existing_scope` until it returns or goes on to bind a running collection. -/
def lookUp (state : DataPlane) (principal : Principal) (collectionName : String) :
    Except DataPlaneRequestError (DataPlaneScope ⊕ CollectionId) := do
  let name ← (CollectionName.new collectionName).mapError fun error =>
    .invalidCollectionName error.display
  let projectId ← (principalProject principal).mapError .resolution
  let found ← (state.catalog.memory.resolve projectId name).mapError fun error =>
    .resolution (.catalog error)
  match found with
  | some scope => pure (.inl scope)
  | none =>
      match state.bridge principal collectionName with
      | some collectionId => pure (.inr collectionId)
      | none => .error .collectionNotFound

/-! ### Requests -/

inductive ProjectRequest where
  | createCollection (principal : Principal) (name : String) (entropy : Option (List UInt8))
  | deleteCollection (principal : Principal) (name : String)
  | updateProject (principal : Principal) (id : ProjectId) (input : UpdateProjectInput) (now : ℕ)
  | deleteProject (principal : Principal) (id : ProjectId)
  | createProject (principal : Principal) (organizationId : OrganizationId)
      (input : CreateProjectInput) (now : ℕ)

/-- What a request does next. -/
inductive RequestPhase where
  /-- `create_collection`: the check of the middleware. -/
  | admittingCreation (principal : Principal) (name : String) (entropy : Option (List UInt8))
  | bindingName (principal : Principal) (name : String) (entropy : Option (List UInt8))
  /-- The check of `claim_collection`. -/
  | authorizingClaim (principal : Principal) (name : String) (collectionId : CollectionId)
  | insertingClaim (principal : Principal) (name : String) (collectionId : CollectionId)
      (projectId : String)
  | storing (principal : Principal) (name : String) (collectionId : CollectionId)
      (claim : ClaimOutcome)
  | releasingClaim (principal : Principal) (name : String) (collectionId : CollectionId)
      (claim : ClaimOutcome)
  | unbindingName (principal : Principal) (name : String) (collectionId : CollectionId)
  /-- `delete_collection`: the check of the middleware. -/
  | admittingDeletion (principal : Principal) (name : String)
  | resolving (principal : Principal) (name : String)
  | bindingLegacy (principal : Principal) (name : String) (collectionId : CollectionId)
  | deletingStored (principal : Principal) (name : String) (collectionId : CollectionId)
  /-- The check of `remove_collection`. -/
  | authorizingRemoval (principal : Principal) (name : String) (collectionId : CollectionId)
  | removingPolicies (principal : Principal) (name : String) (collectionId : CollectionId)
  | removingName (principal : Principal) (name : String) (collectionId : CollectionId)
  /-- `update_project`, which is one change of the store. -/
  | updatingProject (principal : Principal) (id : ProjectId) (input : UpdateProjectInput) (now : ℕ)
  /-- `delete_project`: the project is read. -/
  | findingProject (principal : Principal) (id : ProjectId)
  | authorizingDeletion (principal : Principal) (id : ProjectId) (project : Project)
  | listingCollections (id : ProjectId)
  | removingProject (id : ProjectId)
  | purgingMembers (id : ProjectId)
  /-- `create_project`: the check. -/
  | authorizingProject (principal : Principal) (organizationId : OrganizationId)
      (input : CreateProjectInput) (now : ℕ)
  | planningProject (principal : Principal) (organizationId : OrganizationId)
      (input : CreateProjectInput) (now : ℕ)
  | insertingProject (principal : Principal) (project : Project)
  | bootstrappingOwner (principal : Principal) (id : ProjectId)
  | rollingBack (id : ProjectId)

def ProjectRequest.start : ProjectRequest → RequestPhase
  | .createCollection principal name entropy => .admittingCreation principal name entropy
  | .deleteCollection principal name => .admittingDeletion principal name
  | .updateProject principal id input now => .updatingProject principal id input now
  | .deleteProject principal id => .findingProject principal id
  | .createProject principal organizationId input now =>
      .authorizingProject principal organizationId input now

/-- The files of the server, its catalog of names in memory, the running collections and
the requests in flight. -/
structure ProjectServer where
  files : Files
  catalog : CatalogFile
  runtimes : Std.ExtTreeMap CollectionId (Option DataPlaneScope) compare
  requests : List RequestPhase

/-- A request arrives or goes on. Whether the data of a collection can be stored or
deleted is up to the event. -/
inductive ProjectEvent where
  | receive (request : ProjectRequest)
  | advance (index : ℕ) (succeeds : Bool)

namespace ProjectServer

variable (server : ProjectServer)

def dataPlane : DataPlane := ⟨⟨server.catalog, server.files .collections⟩, server.runtimes⟩

def withCatalog (catalog : CollectionNamespaceCatalog) : ProjectServer :=
  { server with
    files := Function.update server.files .collections catalog.disk
    catalog := catalog.memory }

/-- One operation of the catalog, with its result when it succeeds. -/
def onCatalog {α : Type} (program : DataPlane.RequestProgram α) : ProjectServer × Option α :=
  match program.run server.dataPlane [] with
  | (.ok value, world) => (server.withCatalog world.state.catalog, some value)
  | (_, world) => (server.withCatalog world.state.catalog, none)

/-- One section over the files. -/
def onFiles {ε α : Type} (task : ApiTask ε α) : ProjectServer × Except ε α :=
  match task.finish applyChange server.files with
  | (files, result) => ({ server with files }, result)

/-- Goes on with the next phase if the check is passed. -/
def check {ε α : Type} (task : ApiTask ε α) (next : α → Option RequestPhase)
    (refused : Option RequestPhase) : ProjectServer × Option RequestPhase :=
  match ask server.files task with
  | .ok value => (server, next value)
  | .error _ => (server, refused)

/-- Goes on with the next phase after the files are changed. -/
def change {ε α : Type} (task : ApiTask ε α) (next : α → Option RequestPhase)
    (failed : Option RequestPhase) : ProjectServer × Option RequestPhase :=
  match server.onFiles task with
  | (server, .ok value) => (server, next value)
  | (server, .error _) => (server, failed)

/-- The next phase of a request, and the server after this one. -/
def advance (succeeds : Bool) : RequestPhase → ProjectServer × Option RequestPhase
  | .admittingCreation principal name entropy =>
      server.check (authorizePrincipalProject principal .collectionCreate)
        (fun _ => some (.bindingName principal name entropy)) none
  | .bindingName principal name entropy =>
      match server.onCatalog (DataPlane.createScope principal name entropy) with
      | (server, some scope) => (server, some (.authorizingClaim principal name scope.collectionId))
      | (server, none) => (server, none)
  | .authorizingClaim principal name collectionId =>
      server.check (authorizePrincipalProject principal .collectionCreate)
        (fun projectId => some (.insertingClaim principal name collectionId projectId))
        (some (.unbindingName principal name collectionId))
  | .insertingClaim principal name collectionId projectId =>
      server.change (insertClaim projectId name)
        (fun claim => some (.storing principal name collectionId claim))
        (some (.unbindingName principal name collectionId))
  | .storing principal name collectionId claim =>
      if succeeds then
        let scope := (principalProject principal).toOption.map fun projectId =>
          ⟨projectId, collectionId⟩
        ({ server with runtimes := server.runtimes.insert collectionId scope }, none)
      else (server, some (.releasingClaim principal name collectionId claim))
  | .releasingClaim principal name collectionId claim =>
      server.change (releaseCollectionClaimForPrincipal principal name claim)
        (fun _ => some (.unbindingName principal name collectionId))
        (some (.unbindingName principal name collectionId))
  | .unbindingName principal name collectionId =>
      ((server.onCatalog (DataPlane.removeScope principal name collectionId)).1, none)
  | .admittingDeletion principal name =>
      server.check (authorizeCollection principal .collectionDelete name)
        (fun _ => some (.resolving principal name)) none
  | .resolving principal name =>
      match lookUp server.dataPlane principal name with
      | .ok (.inl scope) => (server, some (.deletingStored principal name scope.collectionId))
      | .ok (.inr collectionId) => (server, some (.bindingLegacy principal name collectionId))
      | .error _ => (server, none)
  | .bindingLegacy principal name collectionId =>
      match server.onCatalog (DataPlane.inCatalog .namespaceCatalog
          (CollectionNamespaceCatalog.bindLegacyDefault collectionId)) with
      | (server, some scope) => (server, some (.deletingStored principal name scope.collectionId))
      | (server, none) => (server, none)
  | .deletingStored principal name collectionId =>
      if succeeds then
        ({ server with runtimes := server.runtimes.erase collectionId },
          some (.authorizingRemoval principal name collectionId))
      else (server, none)
  | .authorizingRemoval principal name collectionId =>
      server.check (authorizeCollection principal .collectionDelete name)
        (fun _ => some (.removingPolicies principal name collectionId)) none
  | .removingPolicies principal name collectionId =>
      server.change (removePolicies principal name)
        (fun _ => some (.removingName principal name collectionId)) none
  | .removingName principal name collectionId =>
      ((server.onCatalog (DataPlane.removeScope principal name collectionId)).1, none)
  | .updatingProject principal id input now =>
      server.change (updateProject principal id input now) (fun _ => none) none
  | .findingProject principal id =>
      match (server.files .store).project id with
      | some project => (server, some (.authorizingDeletion principal id project))
      | none => (server, none)
  | .authorizingDeletion principal id project =>
      server.check (authorizeProjectManagement principal project)
        (fun _ => if project.lifecycle ≠ .deleting then none else some (.listingCollections id)) none
  | .listingCollections id =>
      server.check (ensureNoCollections id) (fun _ => some (.removingProject id)) none
  | .removingProject id =>
      server.change (changeStore (·.deleteProject id)) (fun _ => some (.purgingMembers id)) none
  | .purgingMembers id => server.change (purgeMembers id) (fun _ => none) none
  | .authorizingProject principal organizationId input now =>
      server.check (authorizeOrganization principal organizationId .organizationUpdate)
        (fun _ => some (.planningProject principal organizationId input now)) none
  | .planningProject principal organizationId input now =>
      server.check (newProject organizationId input now)
        (fun project => some (.insertingProject principal project)) none
  | .insertingProject principal project =>
      server.change (changeStore (·.createProject project))
        (fun _ => some (.bootstrappingOwner principal project.id)) none
  | .bootstrappingOwner principal id =>
      match ask server.files openProjectMemberships with
      | .ok memberships => server.change
          (ProjectMembershipService.bootstrapOwner memberships id principal.subject)
          (fun _ => none) (some (.rollingBack id))
      | .error _ => (server, none)
  | .rollingBack id => server.change (changeStore (·.deleteProject id)) (fun _ => none) none

/-- A request without a next phase is answered. -/
def proceed (index : ℕ) : ProjectServer × Option RequestPhase → ProjectServer
  | (server, some phase) => { server with requests := server.requests.set index phase }
  | (server, none) => { server with requests := server.requests.eraseIdx index }

def step (server : ProjectServer) : ProjectEvent → ProjectServer
  | .receive request => { server with requests := server.requests ++ [request.start] }
  | .advance index succeeds =>
      match server.requests[index]? with
      | some phase => proceed index (server.advance succeeds phase)
      | none => server

end ProjectServer

end Ketebe.ControlPlane
