import Ketebe.ControlPlaneApi

/-!
API keys, service accounts and collection policies. Their operations change one file
each, after checks that read the control plane. Authentication and authorization
only read; authorization is the required mode's.
-/
namespace Ketebe.ControlPlane

open Lib.WholeFiles Lib.WholeFiles.Task

/-! ### Service accounts -/

def openServiceAccounts : ApiTask ServiceAccountError ServiceAccountFile :=
  .read .serviceAccounts fun file =>
    if file.version ≠ serviceAccountStoreVersion then throw (.unsupportedVersion file.version)
    else do
      let _ ← openStore
      pure file

def persistServiceAccounts (file : ServiceAccountFile) (change : ServiceAccountChange) :
    ApiTask ServiceAccountError Unit :=
  .persist .serviceAccounts file change fun succeeded =>
    if succeeded then pure () else throw .io

def ensureActiveProject (id : ProjectId) : ApiTask ServiceAccountError Unit := do
  let store ← openStore
  match store.project id with
  | none => throw .projectNotFound
  | some project => if project.lifecycle ≠ .active then throw .projectUnavailable else pure ()

/-- `ServiceAccountStore::authorize_project`. -/
def authorizeServiceAccount (id : ServiceAccountId) (projectId : ProjectId) :
    ApiTask ServiceAccountError ProjectRole := do
  let file ← openServiceAccounts
  let account ← lift (file.account id)
  if account.lifecycle ≠ .active then throw .disabled
  else
    ensureActiveProject projectId
    match account.assignments[projectId.asStr]? with
    | none => throw .assignmentNotFound
    | some role => pure role

/-- An operation of the service accounts. -/
inductive ServiceAccountCall where
  | create (id : ServiceAccountId) (name : String)
  | setLifecycle (id : ServiceAccountId) (lifecycle : ServiceAccountLifecycle)
  | delete (id : ServiceAccountId)
  | assignProject (id : ServiceAccountId) (projectId : ProjectId) (role : ProjectRole)
  | removeProjectAssignment (id : ServiceAccountId) (projectId : ProjectId)

def putServiceAccount (file : ServiceAccountFile) (id : ServiceAccountId)
    (plan : Except ServiceAccountError ServiceAccount) :
    ApiTask ServiceAccountError ServiceAccount := do
  let account ← lift plan
  persistServiceAccounts file (.put id account)
  pure account

def ServiceAccountCall.task (now : ℕ) :
    ServiceAccountCall → ApiTask ServiceAccountError ServiceAccount
  | .create id name => do
      let file ← openServiceAccounts
      putServiceAccount file id (file.create id now name)
  | .setLifecycle id lifecycle => do
      let file ← openServiceAccounts
      putServiceAccount file id (file.setLifecycle id now lifecycle)
  | .delete id => do
      let file ← openServiceAccounts
      let account ← lift (file.account id)
      persistServiceAccounts file (.remove id)
      pure account
  | .assignProject id projectId role => do
      let file ← openServiceAccounts
      ensureActiveProject projectId
      putServiceAccount file id (file.assignProject id now projectId role)
  | .removeProjectAssignment id projectId => do
      let file ← openServiceAccounts
      putServiceAccount file id (file.removeProjectAssignment id now projectId)

/-! ### API keys -/

def openApiKeys : ApiTask ApiKeyError ApiKeyFile :=
  .read .apiKeys fun file =>
    if file.version ≠ apiKeyStoreVersion then throw (.unsupportedVersion file.version)
    else do
      let _ ← openStore
      pure file

def persistApiKeys (file : ApiKeyFile) (id : String) (key : StoredKey) :
    ApiTask ApiKeyError Unit :=
  .persist .apiKeys file (.put id key) fun succeeded =>
    if succeeded then pure () else throw .io

def normalizeProject (projectId : String) : Except ApiKeyError String :=
  match ProjectId.new (trim projectId) with
  | .ok id => .ok id.asStr
  | .error _ => .error .invalidProject

def resolveProject (projectId : String) : ApiTask ApiKeyError (Project × Organization) := do
  let id ← lift ((ProjectId.new projectId).mapError fun _ => .invalidProject)
  let store ← openStore
  match store.project id with
  | none => throw .projectNotFound
  | some project => do
      let organization ← lift ((store.resolveProjectOrganization id).mapError fun error =>
        .controlPlane error.display)
      pure (project, organization)

def resolveActiveProject (projectId : String) : ApiTask ApiKeyError (Project × Organization) := do
  let resolved ← resolveProject projectId
  if resolved.1.lifecycle ≠ .active then throw .projectUnavailable else pure resolved

def serviceAccountError (error : ServiceAccountError) : ApiKeyError :=
  .serviceAccount error.display

def resolveServiceAccountRole (metadata : ApiKeyMetadata) :
    ApiTask ApiKeyError (Option ProjectRole) :=
  match metadata.serviceAccountId with
  | none => pure none
  | some account => do
      let account ← lift ((ServiceAccountId.new account).mapError serviceAccountError)
      let project ← lift ((ProjectId.new metadata.projectId).mapError fun _ => .invalidProject)
      let role ← (authorizeServiceAccount account project).mapError serviceAccountError
      pure (some role)

section Credentials

variable (sha256 : List UInt8 → List UInt8) (now : ℕ)

/-- Issues a key with a fresh id and credential. -/
def issue (file : ApiKeyFile) (projectId : String) (serviceAccountId : Option String)
    (expiresAtUnix : Option ℕ) (entropy : Option KeyEntropy) : ApiTask ApiKeyError IssuedApiKey :=
  match entropy with
  | none => throw .entropyUnavailable
  | some entropy => do
      let (credential, salt, verifier) := generateCredential sha256 entropy.id entropy
      let metadata : ApiKeyMetadata :=
        ⟨entropy.id, projectId, serviceAccountId, now, now, expiresAtUnix, none⟩
      persistApiKeys file entropy.id ⟨metadata, salt, verifier⟩
      pure ⟨metadata, credential⟩

def createApiKey (projectId : String) (expiresAtUnix : Option ℕ) (entropy : Option KeyEntropy) :
    ApiTask ApiKeyError IssuedApiKey := do
  let file ← openApiKeys
  let projectId ← lift (normalizeProject projectId)
  let _ ← resolveActiveProject projectId
  issue sha256 now file projectId none expiresAtUnix entropy

def createForServiceAccount (account : ServiceAccountId) (projectId : String)
    (expiresAtUnix : Option ℕ) (entropy : Option KeyEntropy) :
    ApiTask ApiKeyError IssuedApiKey := do
  let file ← openApiKeys
  let projectId ← lift (normalizeProject projectId)
  let _ ← resolveActiveProject projectId
  let project ← lift ((ProjectId.new projectId).mapError fun _ => .invalidProject)
  let _ ← (authorizeServiceAccount account project).mapError serviceAccountError
  issue sha256 now file projectId (some account.asStr) expiresAtUnix entropy

def storedKey (file : ApiKeyFile) (id : String) : Except ApiKeyError StoredKey :=
  match file.keys[id]? with
  | none => .error .notFound
  | some key => .ok key

def revokedMetadata (metadata : ApiKeyMetadata) : ApiKeyMetadata :=
  if metadata.revokedAtUnix.isNone then
    { metadata with revokedAtUnix := some now, updatedAtUnix := now }
  else metadata

def revokeApiKey (id : String) : ApiTask ApiKeyError ApiKeyMetadata := do
  let file ← openApiKeys
  let key ← lift (storedKey file id)
  let metadata := revokedMetadata now key.metadata
  persistApiKeys file id { key with metadata }
  pure metadata

def rotateApiKey (id : String) (entropy : Option KeyEntropy) :
    ApiTask ApiKeyError IssuedApiKey := do
  let file ← openApiKeys
  let key ← lift (storedKey file id)
  lift (validateActive key.metadata now)
  let _ ← resolveActiveProject key.metadata.projectId
  let _ ← resolveServiceAccountRole key.metadata
  match entropy with
  | none => throw .entropyUnavailable
  | some entropy => do
      let (credential, salt, verifier) := generateCredential sha256 id entropy
      let metadata := { key.metadata with updatedAtUnix := now }
      persistApiKeys file id ⟨metadata, salt, verifier⟩
      pure ⟨metadata, credential⟩

/-- The principal of a key, once its secret is checked. -/
def keyPrincipal (metadata : ApiKeyMetadata) :
    Option ProjectRole → Except AuthenticationError Principal
  | some role => Principal.forWorkloadProjectWithRole
      ("service-account:" ++ metadata.serviceAccountId.getD "") metadata.projectId role
  | none => Principal.forWorkloadProject ("api-key:" ++ metadata.id) metadata.projectId

def authenticateToken (token : String) : ApiTask AuthenticationError Principal :=
  match parseToken token with
  | none => throw .invalidCredential
  | some (id, secret) => do
      let file ← openApiKeys.mapError fun _ => .invalidCredential
      let key ← lift ((storedKey file id).mapError fun _ => .invalidCredential)
      lift ((validateActive key.metadata now).mapError fun _ => .invalidCredential)
      let _ ← (resolveActiveProject key.metadata.projectId).mapError fun _ => .invalidCredential
      let role ← (resolveServiceAccountRole key.metadata).mapError fun _ => .invalidCredential
      if key.verifier ≠ digest sha256 key.salt secret then throw .invalidCredential
      else lift (keyPrincipal key.metadata role)

/-- An operation of the API keys; its entropy is missing when the random source fails. -/
inductive ApiKeyCall where
  | create (projectId : String) (expiresAtUnix : Option ℕ) (entropy : Option KeyEntropy)
  | createForServiceAccount (account : ServiceAccountId) (projectId : String)
      (expiresAtUnix : Option ℕ) (entropy : Option KeyEntropy)
  | revoke (id : String)
  | rotate (id : String) (entropy : Option KeyEntropy)

def ApiKeyCall.task : ApiKeyCall → ApiTask ApiKeyError ApiKeyMetadata
  | .create projectId expiresAtUnix entropy => do
      let issued ← createApiKey sha256 now projectId expiresAtUnix entropy
      pure issued.metadata
  | .createForServiceAccount account projectId expiresAtUnix entropy => do
      let issued ← ControlPlane.createForServiceAccount sha256 now account projectId expiresAtUnix
        entropy
      pure issued.metadata
  | .revoke id => revokeApiKey now id
  | .rotate id entropy => do
      let issued ← rotateApiKey sha256 now id entropy
      pure issued.metadata

end Credentials

/-! ### Collection policies -/

/-- The open service keeps the policies that it has read. -/
def openPolicies : ApiTask AuthorizationError PolicyFile :=
  .read .authorization fun file => do
    if file.version ≠ 1 then throw (.unsupportedVersion file.version)
    else
      let _ ← openStore
      pure file

def persistPolicies (file : PolicyFile) (change : PolicyChange) : ApiTask AuthorizationError Unit :=
  .persist .authorization file change fun succeeded =>
    if succeeded then pure () else throw .io

def authorizeProjectNamed (principal : Principal) (action : AuthorizationAction)
    (projectId : String) : ApiTask AuthorizationError Unit := do
  let id ← lift ((ProjectId.new projectId).mapError fun _ => .undiscoverable)
  authorizeProject principal action id

def pinnedProject (principal : Principal) : Except AuthorizationError String :=
  match principal.workloadProjectId with
  | none => .error .missingProject
  | some projectId => .ok projectId

def authorizePrincipalProject (principal : Principal) (action : AuthorizationAction) :
    ApiTask AuthorizationError String := do
  let projectId ← lift (pinnedProject principal)
  authorizeProjectNamed principal action projectId
  pure projectId

inductive AuthorizationResource where
  | project (projectId : String)
  | collection (projectId collectionId : String)
  deriving DecidableEq, Repr

def foundPolicy (file : PolicyFile) (projectId collectionId : String) :
    Except AuthorizationError (String × CollectionPolicy) :=
  match file.policyOf projectId collectionId with
  | none => .error .undiscoverable
  | some found => .ok found

def authorizeCollectionInProject (principal : Principal) (action : AuthorizationAction)
    (projectId collectionId : String) : ApiTask AuthorizationError AuthorizationResource := do
  let file ← openPolicies
  authorizeProjectNamed principal action projectId
  let found ← lift (foundPolicy file projectId collectionId)
  if (found.2.permissions[principal.subject]?.map fun permission =>
      collectionPermissionAllows permission action) = some false then throw .undiscoverable
  else pure (.collection found.2.projectId collectionId)

def authorizeCollection (principal : Principal) (action : AuthorizationAction)
    (collectionId : String) : ApiTask AuthorizationError AuthorizationResource := do
  let projectId ← lift (pinnedProject principal)
  authorizeCollectionInProject principal action projectId collectionId

def setProjectRole (projectId subject : String) (role : ProjectRole) :
    ApiTask AuthorizationError Unit := do
  let file ← openPolicies
  persistPolicies file (.setRole projectId subject role)

def setCollectionPermission (projectId collectionId subject : String)
    (permission : CollectionPermission) : ApiTask AuthorizationError Unit := do
  let file ← openPolicies
  let found ← lift (foundPolicy file projectId collectionId)
  persistPolicies file (.putCollection found.1
    { found.2 with permissions := found.2.permissions.insert subject permission })

def claimCollection (principal : Principal) (collectionId : String) :
    ApiTask AuthorizationError ClaimOutcome := do
  let file ← openPolicies
  let projectId ← authorizePrincipalProject principal .collectionCreate
  match file.collections[collectionPolicyKey projectId collectionId]? with
  | some existing =>
      if existing.projectId = projectId then pure .existing else throw .ownershipConflict
  | none => do
      persistPolicies file
        (.putCollection (collectionPolicyKey projectId collectionId) ⟨projectId, ∅⟩)
      pure .inserted

def releaseCollectionClaimForPrincipal (principal : Principal) (collectionId : String)
    (outcome : ClaimOutcome) : ApiTask AuthorizationError Unit :=
  if outcome ≠ .inserted then pure ()
  else do
    let projectId ← lift (pinnedProject principal)
    let file ← openPolicies
    persistPolicies file (.removeCollections [collectionPolicyKey projectId collectionId])

def releaseCollectionClaim (collectionId : String) (outcome : ClaimOutcome) :
    ApiTask AuthorizationError Unit :=
  if outcome ≠ .inserted then pure ()
  else do
    let file ← openPolicies
    persistPolicies file (.removeCollections [collectionId])

/-- The keys that go with a collection: its policy's and, when it is the project's,
that of an earlier version. -/
def removedKeys (file : PolicyFile) (projectId collectionId : String) : List String :=
  let remaining := file.collections.erase (collectionPolicyKey projectId collectionId)
  if (remaining[collectionId]?.map CollectionPolicy.projectId) = some projectId then
    [collectionPolicyKey projectId collectionId, collectionId]
  else [collectionPolicyKey projectId collectionId]

def removeCollection (principal : Principal) (collectionId : String) :
    ApiTask AuthorizationError Unit := do
  let _ ← authorizeCollection principal .collectionDelete collectionId
  let projectId ← lift (pinnedProject principal)
  let file ← openPolicies
  persistPolicies file (.removeCollections (removedKeys file projectId collectionId))

/-- An operation on the policies. -/
inductive PolicyCall where
  | setProjectRole (projectId subject : String) (role : ProjectRole)
  | setCollectionPermission (projectId collectionId subject : String)
      (permission : CollectionPermission)
  | claimCollection (principal : Principal) (collectionId : String)
  | releaseCollectionClaimForPrincipal (principal : Principal) (collectionId : String)
      (outcome : ClaimOutcome)
  | releaseCollectionClaim (collectionId : String) (outcome : ClaimOutcome)
  | removeCollection (principal : Principal) (collectionId : String)

def PolicyCall.task : PolicyCall → ApiTask AuthorizationError Unit
  | .setProjectRole projectId subject role => ControlPlane.setProjectRole projectId subject role
  | .setCollectionPermission projectId collectionId subject permission =>
      ControlPlane.setCollectionPermission projectId collectionId subject permission
  | .claimCollection principal collectionId => do
      let _ ← ControlPlane.claimCollection principal collectionId
      pure ()
  | .releaseCollectionClaimForPrincipal principal collectionId outcome =>
      ControlPlane.releaseCollectionClaimForPrincipal principal collectionId outcome
  | .releaseCollectionClaim collectionId outcome =>
      ControlPlane.releaseCollectionClaim collectionId outcome
  | .removeCollection principal collectionId =>
      ControlPlane.removeCollection principal collectionId

end Ketebe.ControlPlane
