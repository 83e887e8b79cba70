import Ketebe.NamespaceCatalog

/-!
Requests that create, resolve, list and remove the collection names of a
project. Collections written before there were projects are bound to the default
project when one of its principals first asks for them.
-/
namespace Ketebe

open Lib.ByteCodec Lib.Durable Lib.Durable.Program CollectionNamespaceCatalog

inductive DataPlaneResolutionError where
  | missingProjectScope
  | invalidProjectScope (message : String)
  | catalog (error : CollectionNamespaceError)
  deriving DecidableEq, Repr

inductive DataPlaneRequestError where
  | invalidCollectionName (message : String)
  | resolution (error : DataPlaneResolutionError)
  | namespaceCatalog (error : CollectionNamespaceError)
  | collectionNotFound
  deriving DecidableEq, Repr

/-- The name catalog and the project scopes of the running collections. -/
structure DataPlane where
  catalog : CollectionNamespaceCatalog
  runtimes : Std.ExtTreeMap CollectionId (Option DataPlaneScope) compare

def principalProject (principal : Principal) : Except DataPlaneResolutionError ProjectId :=
  match principal.workloadProjectId with
  | none => .error .missingProjectScope
  | some project => (ProjectId.new project).mapError fun error => .invalidProjectScope error.display

namespace DataPlane

abbrev RequestProgram := Program DataPlane DataPlaneRequestError

def inCatalog {α : Type} (liftError : CollectionNamespaceError → DataPlaneRequestError)
    (program : Program CollectionNamespaceCatalog CollectionNamespaceError α) : RequestProgram α :=
  (program.mapError liftError).onPart DataPlane.catalog fun catalog state =>
    { state with catalog := catalog }

def requestedName (collectionName : String) : RequestProgram CollectionName :=
  lift ((CollectionName.new collectionName).mapError fun error =>
    .invalidCollectionName error.display)

def requestProject (principal : Principal) : RequestProgram ProjectId :=
  lift ((principalProject principal).mapError .resolution)

def createScope (principal : Principal) (collectionName : String)
    (entropy : Option (List UInt8)) : RequestProgram DataPlaneScope := do
  let name ← requestedName collectionName
  let projectId ← requestProject principal
  inCatalog (fun error => .resolution (.catalog error)) (CollectionNamespaceCatalog.create projectId name entropy)

/-- The running collection that the compatibility bridge binds for this request. -/
def bridge (state : DataPlane) (principal : Principal) (collectionName : String) :
    Option CollectionId :=
  if principal.workloadProjectId = some ProjectId.defaultProject.asStr then
    match CollectionId.new collectionName with
    | .ok collectionId => if collectionId ∈ state.runtimes then some collectionId else none
    | .error _ => none
  else none

def resolveExistingScope (principal : Principal) (collectionName : String) :
    RequestProgram DataPlaneScope := do
  let name ← requestedName collectionName
  let projectId ← requestProject principal
  let state ← get
  let found ← lift ((state.catalog.memory.resolve projectId name).mapError fun error =>
    .resolution (.catalog error))
  match found with
  | some scope => pure scope
  | none =>
      match state.bridge principal collectionName with
      | some collectionId => inCatalog .namespaceCatalog (bindLegacyDefault collectionId)
      | none => throw .collectionNotFound

/-- The running collections without a project, in the order of their ids. -/
def legacyIds (state : DataPlane) : List CollectionId :=
  (state.runtimes.toList.filter fun entry => entry.2.isNone).map Prod.fst

/-- The loop body of `list_project_scopes`. -/
def bindUnlessFound (collectionId : CollectionId) : RequestProgram Unit := do
  let state ← get
  let found ← lift ((state.catalog.memory.findScopeByCollectionId collectionId).mapError
    .namespaceCatalog)
  if found.isNone then do
    let _ ← inCatalog .namespaceCatalog (bindLegacyDefault collectionId)
    pure ()
  else pure ()

def bindLegacyRuntimes (projectId : ProjectId) : RequestProgram Unit := do
  let state ← get
  if projectId = .defaultProject then forEach bindUnlessFound state.legacyIds else pure ()

def listProjectScopes (principal : Principal) :
    RequestProgram (List (CollectionName × DataPlaneScope)) := do
  let projectId ← requestProject principal
  bindLegacyRuntimes projectId
  let state ← get
  lift ((state.catalog.memory.listProject projectId).mapError .namespaceCatalog)

def removeScope (principal : Principal) (collectionName : String) (collectionId : CollectionId) :
    RequestProgram Unit := do
  let projectId ← requestProject principal
  let name ← requestedName collectionName
  let _ ← inCatalog .namespaceCatalog (CollectionNamespaceCatalog.remove projectId name collectionId)
  pure ()

end DataPlane

end Ketebe
