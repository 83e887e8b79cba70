import Ketebe.CollectionAuthorization
import Ketebe.Lib.CachedFile

/-!
The security stores of a running server. The policies and the API keys are kept in
memory and written whole after each change. What a check reads besides is on disk,
where the other services keep it.
-/
namespace Ketebe.ControlPlane

open Lib.ByteCodec Lib.WholeFiles Lib.WholeFiles.Task Lib.Durable Lib.Durable.Program
  Lib.CachedFile

abbrev PolicyProgram := Program (Cached PolicyFile) AuthorizationError

abbrev KeyProgram := Program (Cached ApiKeyFile) ApiKeyError

/-- The answer of a check that reads the files. -/
abbrev ask {ε α : Type} (files : Files) (task : ApiTask ε α) : Except ε α :=
  task.answer applyChange files

/-! ### The authorization service -/

namespace AuthorizationService

def change (change : PolicyChange) : PolicyProgram Unit := Cached.commit .io (·.apply change)

def setProjectRole (projectId subject : String) (role : ProjectRole) : PolicyProgram Unit :=
  change (.setRole projectId subject role)

def setCollectionPermission (projectId collectionId subject : String)
    (permission : CollectionPermission) : PolicyProgram Unit := do
  let service ← get
  let found ← Program.lift (foundPolicy service.memory projectId collectionId)
  change (.putCollection found.1
    { found.2 with permissions := found.2.permissions.insert subject permission })

def releaseCollectionClaimForPrincipal (principal : Principal) (collectionId : String)
    (outcome : ClaimOutcome) : PolicyProgram Unit :=
  if outcome ≠ .inserted then pure ()
  else do
    let projectId ← Program.lift (pinnedProject principal)
    change (.removeCollections [collectionPolicyKey projectId collectionId])

def releaseCollectionClaim (collectionId : String) (outcome : ClaimOutcome) :
    PolicyProgram Unit :=
  if outcome ≠ .inserted then pure () else change (.removeCollections [collectionId])

def projectCollectionCount (file : PolicyFile) (projectId : String) : ℕ :=
  (file.collections.toList.filter fun entry => entry.2.projectId = projectId).length

variable (files : Files)

def authorizeCollectionInProject (file : PolicyFile) (principal : Principal)
    (action : AuthorizationAction) (projectId collectionId : String) :
    Except AuthorizationError AuthorizationResource := do
  ask files (authorizeProjectNamed principal action projectId)
  let found ← foundPolicy file projectId collectionId
  if (found.2.permissions[principal.subject]?.map fun permission =>
      collectionPermissionAllows permission action) = some false then .error .undiscoverable
  else pure (.collection found.2.projectId collectionId)

def authorizeCollection (file : PolicyFile) (principal : Principal)
    (action : AuthorizationAction) (collectionId : String) :
    Except AuthorizationError AuthorizationResource := do
  let projectId ← pinnedProject principal
  authorizeCollectionInProject files file principal action projectId collectionId

def claimCollection (principal : Principal) (collectionId : String) :
    PolicyProgram ClaimOutcome := do
  let projectId ← Program.lift (ask files (authorizePrincipalProject principal .collectionCreate))
  let service ← get
  match service.memory.collections[collectionPolicyKey projectId collectionId]? with
  | some existing =>
      if existing.projectId = projectId then pure .existing else throw .ownershipConflict
  | none => do
      change (.putCollection (collectionPolicyKey projectId collectionId) ⟨projectId, ∅⟩)
      pure .inserted

def removeCollection (principal : Principal) (collectionId : String) : PolicyProgram Unit := do
  let service ← get
  let _ ← Program.lift
    (authorizeCollection files service.memory principal .collectionDelete collectionId)
  let projectId ← Program.lift (pinnedProject principal)
  change (.removeCollections (removedKeys service.memory projectId collectionId))

def call : PolicyCall → PolicyProgram Unit
  | .setProjectRole projectId subject role => setProjectRole projectId subject role
  | .setCollectionPermission projectId collectionId subject permission =>
      setCollectionPermission projectId collectionId subject permission
  | .claimCollection principal collectionId => do
      let _ ← claimCollection files principal collectionId
      pure ()
  | .releaseCollectionClaimForPrincipal principal collectionId outcome =>
      releaseCollectionClaimForPrincipal principal collectionId outcome
  | .releaseCollectionClaim collectionId outcome => releaseCollectionClaim collectionId outcome
  | .removeCollection principal collectionId => removeCollection files principal collectionId

end AuthorizationService

/-! ### The API keys -/

theorem storedKey_ok_iff {file : ApiKeyFile} {id : String} {key : StoredKey} :
    storedKey file id = .ok key ↔ file.keys[id]? = some key := by
  unfold storedKey
  cases file.keys[id]? <;> simp

namespace ApiKeyStore

def put (id : String) (key : StoredKey) : KeyProgram Unit := Cached.commit .io (·.apply (.put id key))

section Credentials

variable (sha256 : List UInt8 → List UInt8) (now : ℕ)

def issue (projectId : String) (serviceAccountId : Option String) (expiresAtUnix : Option ℕ)
    (entropy : Option KeyEntropy) : KeyProgram IssuedApiKey :=
  match entropy with
  | none => throw .entropyUnavailable
  | some entropy => do
      let (credential, salt, verifier) := generateCredential sha256 entropy.id entropy
      let metadata : ApiKeyMetadata :=
        ⟨entropy.id, projectId, serviceAccountId, now, now, expiresAtUnix, none⟩
      put entropy.id ⟨metadata, salt, verifier⟩
      pure ⟨metadata, credential⟩

def revoke (id : String) : KeyProgram ApiKeyMetadata := do
  let store ← get
  let key ← Program.lift (storedKey store.memory id)
  let metadata := revokedMetadata now key.metadata
  put id { key with metadata }
  pure metadata

variable (files : Files)

def checkProject (projectId : String) : Except ApiKeyError String := do
  let projectId ← normalizeProject projectId
  let _ ← ask files (resolveActiveProject projectId)
  pure projectId

def create (projectId : String) (expiresAtUnix : Option ℕ) (entropy : Option KeyEntropy) :
    KeyProgram IssuedApiKey := do
  let projectId ← Program.lift (checkProject files projectId)
  issue sha256 now projectId none expiresAtUnix entropy

def checkAccount (account : ServiceAccountId) (projectId : String) :
    Except ApiKeyError String := do
  let projectId ← checkProject files projectId
  let project ← (ProjectId.new projectId).mapError fun _ => .invalidProject
  let _ ← (ask files (authorizeServiceAccount account project)).mapError serviceAccountError
  pure projectId

def createForServiceAccount (account : ServiceAccountId) (projectId : String)
    (expiresAtUnix : Option ℕ) (entropy : Option KeyEntropy) : KeyProgram IssuedApiKey := do
  let projectId ← Program.lift (checkAccount files account projectId)
  issue sha256 now projectId (some account.asStr) expiresAtUnix entropy

def checkRotation (file : ApiKeyFile) (id : String) : Except ApiKeyError StoredKey := do
  let key ← storedKey file id
  validateActive key.metadata now
  let _ ← ask files (resolveActiveProject key.metadata.projectId)
  let _ ← ask files (resolveServiceAccountRole key.metadata)
  pure key

def rotate (id : String) (entropy : Option KeyEntropy) : KeyProgram IssuedApiKey := do
  let store ← get
  let key ← Program.lift (checkRotation now files store.memory id)
  match entropy with
  | none => throw .entropyUnavailable
  | some entropy => do
      let (credential, salt, verifier) := generateCredential sha256 id entropy
      let metadata := { key.metadata with updatedAtUnix := now }
      put id ⟨metadata, salt, verifier⟩
      pure ⟨metadata, credential⟩

def authenticateToken (file : ApiKeyFile) (token : String) :
    Except AuthenticationError Principal :=
  match parseToken token with
  | none => .error .invalidCredential
  | some (id, secret) => do
      let key ← (storedKey file id).mapError fun _ => .invalidCredential
      (validateActive key.metadata now).mapError fun _ => .invalidCredential
      let _ ← (ask files (resolveActiveProject key.metadata.projectId)).mapError fun _ =>
        .invalidCredential
      let role ← (ask files (resolveServiceAccountRole key.metadata)).mapError fun _ =>
        .invalidCredential
      if key.verifier ≠ digest sha256 key.salt secret then .error .invalidCredential
      else keyPrincipal key.metadata role

def call : ApiKeyCall → KeyProgram ApiKeyMetadata
  | .create projectId expiresAtUnix entropy => do
      let issued ← create sha256 now files projectId expiresAtUnix entropy
      pure issued.metadata
  | .createForServiceAccount account projectId expiresAtUnix entropy => do
      let issued ← createForServiceAccount sha256 now files account projectId expiresAtUnix entropy
      pure issued.metadata
  | .revoke id => revoke now id
  | .rotate id entropy => do
      let issued ← rotate sha256 now files id entropy
      pure issued.metadata

end Credentials

end ApiKeyStore

end Ketebe.ControlPlane
