import Ketebe.NamespaceOwnership
import Ketebe.SecurityStores

/-!
Failed calls of the security stores. The stores change what they keep in memory
before they write it, so a call whose write fails keeps its change in memory only. A
creation without randomness leaves its project in the catalog.
-/
namespace Ketebe.ControlPlane

open Lib.ByteCodec Lib.WholeFiles Lib.WholeFiles.Task Lib.Durable Lib.Durable.Program
  Lib.CachedFile

/-- The security stores of a server. -/
structure SecurityStores where
  policies : Cached PolicyFile
  keys : Cached ApiKeyFile
  catalog : CollectionNamespaceCatalog

inductive SecurityError where
  | authorization (error : AuthorizationError)
  | apiKey (error : ApiKeyError)
  | catalog (error : CollectionNamespaceError)
  deriving DecidableEq

/-- An operation of the catalog of collection names. -/
inductive CatalogCall where
  | create (projectId : ProjectId) (name : CollectionName) (entropy : Option (List UInt8))
  | remove (projectId : ProjectId) (name : CollectionName) (expected : CollectionId)
  | bindLegacyDefault (collectionId : CollectionId)

inductive SecurityCall where
  | policies (call : PolicyCall)
  | keys (call : ApiKeyCall)
  | catalog (call : CatalogCall)

def CatalogCall.program : CatalogCall → CollectionNamespaceCatalog.CatalogProgram Unit
  | .create projectId name entropy => do
      let _ ← CollectionNamespaceCatalog.create projectId name entropy
      pure ()
  | .remove projectId name expected => do
      let _ ← CollectionNamespaceCatalog.remove projectId name expected
      pure ()
  | .bindLegacyDefault collectionId => do
      let _ ← CollectionNamespaceCatalog.bindLegacyDefault collectionId
      pure ()

section Calls

variable (sha256 : List UInt8 → List UInt8) (files : Files) (now : ℕ)

def SecurityCall.program : SecurityCall → Program SecurityStores SecurityError Unit
  | .policies call => ((AuthorizationService.call files call).mapError .authorization).onPart
      SecurityStores.policies fun policies stores => { stores with policies }
  | .keys call => (do
        let _ ← (ApiKeyStore.call sha256 now files call).mapError SecurityError.apiKey
        pure () : Program (Cached ApiKeyFile) SecurityError Unit).onPart
      SecurityStores.keys fun keys stores => { stores with keys }
  | .catalog call => (call.program.mapError .catalog).onPart
      SecurityStores.catalog fun catalog stores => { stores with catalog }

/-! ### Calls that change what is in memory -/

/-- The checks pass, and the policies do not hold already what the call asks for. -/
def PolicyCall.Alters (file : PolicyFile) : PolicyCall → Prop
  | .setProjectRole projectId subject role =>
      (file.projects.getD projectId ∅)[subject]? ≠ some role
  | .setCollectionPermission projectId collectionId subject permission =>
      ∃ key policy, file.policyOf projectId collectionId = some (key, policy) ∧
        policy.permissions[subject]? ≠ some permission
  | .claimCollection principal collectionId => ∃ projectId,
      ask files (authorizePrincipalProject principal .collectionCreate) = .ok projectId ∧
        collectionPolicyKey projectId collectionId ∉ file.collections
  | .releaseCollectionClaimForPrincipal principal collectionId outcome =>
      outcome = .inserted ∧ ∃ projectId, principal.workloadProjectId = some projectId ∧
        collectionPolicyKey projectId collectionId ∈ file.collections
  | .releaseCollectionClaim collectionId outcome =>
      outcome = .inserted ∧ collectionId ∈ file.collections
  | .removeCollection principal collectionId => ∃ resource,
      AuthorizationService.authorizeCollection files file principal .collectionDelete
        collectionId = .ok resource

/-- The checks pass, and the keys do not hold already what the call stores. -/
def ApiKeyCall.Alters (file : ApiKeyFile) : ApiKeyCall → Prop
  | .create projectId expiresAtUnix entropy => ∃ id random,
      ApiKeyStore.checkProject files projectId = .ok id ∧ entropy = some random ∧
        file.keys[random.id]? ≠ some ⟨⟨random.id, id, none, now, now, expiresAtUnix, none⟩,
          random.salt, digest sha256 random.salt random.secret⟩
  | .createForServiceAccount account projectId expiresAtUnix entropy => ∃ id random,
      ApiKeyStore.checkAccount files account projectId = .ok id ∧ entropy = some random ∧
        file.keys[random.id]? ≠ some ⟨⟨random.id, id, some account.asStr, now, now, expiresAtUnix,
          none⟩, random.salt, digest sha256 random.salt random.secret⟩
  | .revoke id => ∃ key, file.keys[id]? = some key ∧ key.metadata.revokedAtUnix = none
  | .rotate id entropy => ∃ key random,
      ApiKeyStore.checkRotation now files file id = .ok key ∧ entropy = some random ∧
        key ≠ ⟨{ key.metadata with updatedAtUnix := now }, random.salt,
          digest sha256 random.salt random.secret⟩

/-- The names change. -/
def CatalogCall.Alters (file : CatalogFile) : CatalogCall → Prop
  | .create projectId name entropy => name.asStr ∉ file.names projectId.asStr ∧
      ∃ collectionId, generateCollectionId entropy = .ok collectionId
  | .remove projectId name expected =>
      (file.names projectId.asStr)[name.asStr]? = some expected.asStr
  | .bindLegacyDefault collectionId =>
      collectionId.asStr ∉ file.names ProjectId.defaultProject.asStr

/-- A creation in a project without names that gets no collection id. -/
def CatalogCall.LeavesProject (file : CatalogFile) : CatalogCall → Prop
  | .create projectId _ entropy => projectId.asStr ∉ file.projects ∧
      ∃ error, generateCollectionId entropy = .error error
  | .remove .. | .bindLegacyDefault _ => False

def SecurityCall.Alters (stores : SecurityStores) : SecurityCall → Prop
  | .policies call => call.Alters files stores.policies.memory
  | .keys call => call.Alters sha256 files now stores.keys.memory
  | .catalog call => call.Alters stores.catalog.memory

def SecurityCall.LeavesProject (stores : SecurityStores) : SecurityCall → Prop
  | .catalog call => call.LeavesProject stores.catalog.memory
  | .policies _ | .keys _ => False

end Calls

/-! ### The authorization service -/

section Policies

variable {files : Files} {store : Cached PolicyFile} {faults : List Fault}

theorem keepsOnError_change_iff {change : PolicyChange} {P : Prop}
    (h : store.memory.apply change = store.memory ↔ ¬P) :
    KeepsOnError store (AuthorizationService.change change) store faults ↔
      ¬(P ∧ Cached.failing faults) := by
  have hchange : KeepsOnError store (AuthorizationService.change change) store faults ↔
      ¬(store.memory.apply change ≠ store.memory ∧ Cached.failing faults) :=
    Cached.keepsOnError_commit_iff
  rw [hchange, ne_eq, h, not_not]

/-- A call that first checks, and then changes something. -/
theorem keepsOnError_check_iff {σ ε α β : Type} {original : σ} {plan : Except ε α}
    {next : α → Program σ ε β} {faults : List Fault} {P : α → Prop} {Q : Prop}
    (h : ∀ value, plan = .ok value →
      (KeepsOnError original (next value) original faults ↔ ¬(P value ∧ Q))) :
    KeepsOnError original (Program.lift plan >>= next) original faults ↔
      ¬((∃ value, plan = .ok value ∧ P value) ∧ Q) := by
  rw [keepsOnError_lift_iff]
  constructor
  · intro hkeeps hwrong
    obtain ⟨⟨value, hvalue, hP⟩, hQ⟩ := hwrong
    exact (h value hvalue).mp (hkeeps.2 value hvalue) ⟨hP, hQ⟩
  · intro hright
    refine ⟨fun _ _ => rfl, fun value hvalue => (h value hvalue).mpr fun hwrong => ?_⟩
    exact hright ⟨⟨value, hvalue, hwrong.1⟩, hwrong.2⟩

theorem keepsOnError_setCollectionPermission_iff {projectId collectionId subject : String}
    {permission : CollectionPermission} :
    KeepsOnError store (AuthorizationService.setCollectionPermission projectId collectionId subject
      permission) store faults ↔
        ¬((PolicyCall.setCollectionPermission projectId collectionId subject permission).Alters
          files store.memory ∧ Cached.failing faults) := by
  have hcheck : KeepsOnError store (AuthorizationService.setCollectionPermission projectId
      collectionId subject permission) store faults ↔
        ¬((∃ found, foundPolicy store.memory projectId collectionId = .ok found ∧
          found.2.permissions[subject]? ≠ some permission) ∧ Cached.failing faults) := by
    refine keepsOnError_get_iff.trans (keepsOnError_check_iff fun found hfound =>
      keepsOnError_change_iff ?_)
    have hstored : store.memory.collections[found.1]? = some found.2 := by
      unfold foundPolicy at hfound
      split at hfound
      · cases hfound
      · rename_i hpolicy
        cases hfound
        exact PolicyFile.collections_of_policyOf hpolicy
    rw [PolicyFile.apply_putCollection_eq_iff, hstored, not_not, ← PolicyFile.insert_eq_self_iff,
      Option.some.injEq]
    constructor
    · intro h
      exact (congrArg CollectionPolicy.permissions h).symm
    · intro h
      exact congrArg (fun permissions => { found.2 with permissions }) h.symm
  rw [hcheck]
  have hfound (key : String) (policy : CollectionPolicy) :
      foundPolicy store.memory projectId collectionId = .ok (key, policy) ↔
        store.memory.policyOf projectId collectionId = some (key, policy) := by
    unfold foundPolicy
    cases store.memory.policyOf projectId collectionId <;> simp
  simp only [PolicyCall.Alters, ← hfound, Prod.exists]

theorem keepsOnError_claimCollection_iff {principal : Principal} {collectionId : String} :
    KeepsOnError store (AuthorizationService.claimCollection files principal collectionId) store
      faults ↔ ¬((PolicyCall.claimCollection principal collectionId).Alters files store.memory ∧
        Cached.failing faults) := by
  refine keepsOnError_check_iff fun projectId _ => ?_
  refine keepsOnError_get_iff.trans ?_
  cases hpolicy : store.memory.collections[collectionPolicyKey projectId collectionId]? with
  | some existing =>
    have hmem : collectionPolicyKey projectId collectionId ∈ store.memory.collections :=
      Std.ExtTreeMap.mem_iff_isSome_getElem?.mpr (Option.isSome_of_eq_some hpolicy)
    dsimp only
    split
    · exact iff_of_true keepsOnError_pure fun h => h.1 hmem
    · exact iff_of_true (keepsOnError_throw_iff.mpr rfl) fun h => h.1 hmem
  | none =>
    refine keepsOnError_map_iff.trans (keepsOnError_change_iff ?_)
    rw [PolicyFile.apply_putCollection_eq_iff, hpolicy, not_not]
    constructor
    · intro h
      cases h
    · intro hmem
      have hsome := Std.ExtTreeMap.mem_iff_isSome_getElem?.mp hmem
      rw [hpolicy] at hsome
      cases hsome

theorem removes_found {file : PolicyFile} {projectId collectionId : String}
    {found : String × CollectionPolicy} (h : foundPolicy file projectId collectionId = .ok found) :
    ∃ key ∈ removedKeys file projectId collectionId, key ∈ file.collections := by
  unfold foundPolicy at h
  split at h
  · cases h
  rename_i found hpolicy
  cases h
  have hmem : found.1 ∈ file.collections := Std.ExtTreeMap.mem_iff_isSome_getElem?.mpr
    (Option.isSome_of_eq_some (PolicyFile.collections_of_policyOf hpolicy))
  obtain ⟨key, hkey, hpolicy⟩ := Option.bind_eq_some_iff.mp hpolicy
  obtain ⟨policy, -, hpolicy⟩ := Option.bind_eq_some_iff.mp hpolicy
  cases hpolicy
  refine ⟨key, ?_, hmem⟩
  unfold PolicyFile.policyKey at hkey
  unfold removedKeys
  split at hkey
  · cases hkey
    dsimp only
    split <;> simp
  · split at hkey
    · rename_i hprefixed hlegacy
      cases hkey
      have herase : file.collections.erase (collectionPolicyKey projectId collectionId) =
          file.collections := by
        apply Std.ExtTreeMap.ext_getElem?
        intro other
        rw [Std.ExtTreeMap.getElem?_erase]
        split
        · rename_i hother
          rw [← compare_eq_iff_eq.mp hother, Std.ExtTreeMap.getElem?_eq_none hprefixed]
        · rfl
      dsimp only
      rw [herase, if_pos hlegacy]
      simp
    · cases hkey

theorem keepsOnError_removeCollection_iff {principal : Principal} {collectionId : String} :
    KeepsOnError store (AuthorizationService.removeCollection files principal collectionId) store
      faults ↔ ¬((PolicyCall.removeCollection principal collectionId).Alters files store.memory ∧
        Cached.failing faults) := by
  have hcheck : KeepsOnError store (AuthorizationService.removeCollection files principal
      collectionId) store faults ↔
        ¬((∃ resource, AuthorizationService.authorizeCollection files store.memory principal
          .collectionDelete collectionId = .ok resource ∧ True) ∧ Cached.failing faults) := by
    refine keepsOnError_get_iff.trans (keepsOnError_check_iff fun resource hresource => ?_)
    obtain ⟨projectId, hproject, hauthorized⟩ := except_bind_ok.mp hresource
    obtain ⟨_, -, hauthorized⟩ := except_bind_ok.mp hauthorized
    obtain ⟨found, hfound, -⟩ := except_bind_ok.mp hauthorized
    rw [hproject]
    refine keepsOnError_change_iff ?_
    rw [PolicyFile.apply_removeCollections_eq_iff, not_true]
    obtain ⟨key, hremoved, hmem⟩ := removes_found hfound
    exact iff_false_intro fun h => h key hremoved hmem
  rw [hcheck]
  simp only [PolicyCall.Alters, and_true]

theorem keepsOnError_removeKey_iff {key : String} :
    KeepsOnError store (AuthorizationService.change (.removeCollections [key])) store faults ↔
      ¬(key ∈ store.memory.collections ∧ Cached.failing faults) := by
  refine keepsOnError_change_iff ?_
  rw [PolicyFile.apply_removeCollections_eq_iff]
  simp

theorem keepsOnError_releaseForPrincipal_iff {principal : Principal} {collectionId : String}
    {outcome : ClaimOutcome} :
    KeepsOnError store (AuthorizationService.releaseCollectionClaimForPrincipal principal
      collectionId outcome) store faults ↔
        ¬((PolicyCall.releaseCollectionClaimForPrincipal principal collectionId outcome).Alters
          files store.memory ∧ Cached.failing faults) := by
  unfold AuthorizationService.releaseCollectionClaimForPrincipal
  by_cases houtcome : outcome = .inserted
  · rw [if_neg (not_not.mpr houtcome)]
    have hpinned (projectId : String) : pinnedProject principal = .ok projectId ↔
        principal.workloadProjectId = some projectId := by
      unfold pinnedProject
      cases principal.workloadProjectId <;> simp
    simp only [PolicyCall.Alters, houtcome, true_and, ← hpinned]
    exact keepsOnError_check_iff fun _ _ => keepsOnError_removeKey_iff
  · rw [if_pos houtcome]
    exact iff_of_true keepsOnError_pure fun h => houtcome h.1.1

theorem keepsOnError_policyCall_iff (call : PolicyCall) :
    KeepsOnError store (AuthorizationService.call files call) store faults ↔
      ¬(call.Alters files store.memory ∧ Cached.failing faults) := by
  cases call with
  | setProjectRole projectId subject role =>
    refine keepsOnError_change_iff ?_
    rw [PolicyFile.apply_setRole_eq_iff, PolicyCall.Alters, not_not]
  | setCollectionPermission projectId collectionId subject permission =>
    exact keepsOnError_setCollectionPermission_iff
  | claimCollection principal collectionId =>
    exact keepsOnError_map_iff.trans keepsOnError_claimCollection_iff
  | releaseCollectionClaimForPrincipal principal collectionId outcome =>
    exact keepsOnError_releaseForPrincipal_iff
  | releaseCollectionClaim collectionId outcome =>
    show KeepsOnError store (AuthorizationService.releaseCollectionClaim collectionId outcome) store
      faults ↔ ¬((outcome = .inserted ∧ collectionId ∈ store.memory.collections) ∧
        Cached.failing faults)
    unfold AuthorizationService.releaseCollectionClaim
    by_cases houtcome : outcome = .inserted
    · rw [if_neg (not_not.mpr houtcome), keepsOnError_removeKey_iff, and_iff_right houtcome]
    · rw [if_pos houtcome]
      exact iff_of_true keepsOnError_pure fun h => houtcome h.1.1
  | removeCollection principal collectionId => exact keepsOnError_removeCollection_iff

end Policies

/-! ### The API keys -/

section Keys

variable {sha256 : List UInt8 → List UInt8} {files : Files} {now : ℕ} {store : Cached ApiKeyFile}
  {faults : List Fault}

theorem keepsOnError_put_iff {id : String} {key : StoredKey} :
    KeepsOnError store (ApiKeyStore.put id key) store faults ↔
      ¬(store.memory.keys[id]? ≠ some key ∧ Cached.failing faults) := by
  have hput : KeepsOnError store (ApiKeyStore.put id key) store faults ↔
      ¬(store.memory.apply (.put id key) ≠ store.memory ∧ Cached.failing faults) :=
    Cached.keepsOnError_commit_iff
  have hsame : store.memory.apply (.put id key) = store.memory ↔
      store.memory.keys[id]? = some key := by
    rw [← PolicyFile.insert_eq_self_iff]
    constructor
    · intro h
      exact congrArg ApiKeyFile.keys h
    · intro h
      exact congrArg (fun keys => { store.memory with keys }) h
  rw [hput, ne_eq, hsame]

theorem keepsOnError_issue_iff {projectId : String} {account : Option String}
    {expiresAtUnix : Option ℕ} {entropy : Option KeyEntropy} :
    KeepsOnError store (ApiKeyStore.issue sha256 now projectId account expiresAtUnix entropy) store
      faults ↔ ¬((∃ random, entropy = some random ∧
        store.memory.keys[random.id]? ≠ some ⟨⟨random.id, projectId, account, now, now,
          expiresAtUnix, none⟩, random.salt, digest sha256 random.salt random.secret⟩) ∧
            Cached.failing faults) := by
  cases entropy with
  | none => exact iff_of_true (keepsOnError_throw_iff.mpr rfl) (by simp)
  | some random =>
    refine keepsOnError_map_iff.trans (keepsOnError_put_iff.trans ?_)
    simp

theorem keepsOnError_revoke_iff {id : String} :
    KeepsOnError store (ApiKeyStore.revoke now id) store faults ↔
      ¬((ApiKeyCall.revoke id).Alters sha256 files now store.memory ∧ Cached.failing faults) := by
  simp only [ApiKeyCall.Alters, ← storedKey_ok_iff]
  refine keepsOnError_get_iff.trans (keepsOnError_check_iff fun key hkey => ?_)
  refine keepsOnError_map_iff.trans (keepsOnError_put_iff.trans ?_)
  have hrevoked : store.memory.keys[id]? ≠ some { key with
      metadata := revokedMetadata now key.metadata } ↔ key.metadata.revokedAtUnix = none := by
    rw [storedKey_ok_iff.mp hkey, ne_eq, Option.some.injEq]
    unfold revokedMetadata
    cases hat : key.metadata.revokedAtUnix with
    | none =>
      rw [Option.isNone_none, if_pos rfl]
      refine iff_of_true (fun h => ?_) rfl
      have hnone : key.metadata.revokedAtUnix = some now :=
        congrArg (fun key => key.metadata.revokedAtUnix) h
      rw [hat] at hnone
      cases hnone
    | some at_ =>
      rw [Option.isNone_some, if_neg Bool.false_ne_true]
      simp
  rw [hrevoked]

theorem keepsOnError_rotate_iff {id : String} {entropy : Option KeyEntropy} :
    KeepsOnError store (ApiKeyStore.rotate sha256 now files id entropy) store faults ↔
      ¬((ApiKeyCall.rotate id entropy).Alters sha256 files now store.memory ∧
        Cached.failing faults) := by
  have hcheck : KeepsOnError store (ApiKeyStore.rotate sha256 now files id entropy) store faults ↔
      ¬((∃ key, ApiKeyStore.checkRotation now files store.memory id = .ok key ∧
        ∃ random, entropy = some random ∧
          key ≠ ⟨{ key.metadata with updatedAtUnix := now }, random.salt,
            digest sha256 random.salt random.secret⟩) ∧ Cached.failing faults) := by
    refine keepsOnError_get_iff.trans (keepsOnError_check_iff fun key hkey => ?_)
    cases entropy with
    | none => exact iff_of_true (keepsOnError_throw_iff.mpr rfl) (by simp)
    | some random =>
      refine keepsOnError_map_iff.trans (keepsOnError_put_iff.trans ?_)
      obtain ⟨stored, hstored, hkey⟩ := except_bind_ok.mp hkey
      obtain ⟨_, -, hkey⟩ := except_bind_ok.mp hkey
      obtain ⟨_, -, hkey⟩ := except_bind_ok.mp hkey
      obtain ⟨_, -, hkey⟩ := except_bind_ok.mp hkey
      cases hkey
      rw [storedKey_ok_iff.mp hstored]
      simp
  rw [hcheck]
  simp only [ApiKeyCall.Alters, exists_and_left]

theorem keepsOnError_keyCall_iff (call : ApiKeyCall) :
    KeepsOnError store (ApiKeyStore.call sha256 now files call) store faults ↔
      ¬(call.Alters sha256 files now store.memory ∧ Cached.failing faults) := by
  cases call with
  | create projectId expiresAtUnix entropy =>
    refine keepsOnError_map_iff.trans ((keepsOnError_check_iff fun _ _ =>
      keepsOnError_issue_iff).trans ?_)
    simp only [ApiKeyCall.Alters, exists_and_left]
  | createForServiceAccount account projectId expiresAtUnix entropy =>
    refine keepsOnError_map_iff.trans ((keepsOnError_check_iff fun _ _ =>
      keepsOnError_issue_iff).trans ?_)
    simp only [ApiKeyCall.Alters, exists_and_left]
  | revoke id => exact keepsOnError_revoke_iff
  | rotate id entropy => exact keepsOnError_map_iff.trans keepsOnError_rotate_iff

end Keys

/-! ### The catalog -/

section Catalog

variable {catalog : CollectionNamespaceCatalog} {faults : List Fault}

theorem keepsOnError_persist_iff {memory : CatalogFile} :
    KeepsOnError catalog CollectionNamespaceCatalog.persist { catalog with memory } faults ↔
      ¬(memory ≠ catalog.memory ∧ Cached.failing faults) := by
  have hmemory : ({ catalog with memory } : CollectionNamespaceCatalog) = catalog ↔
      memory = catalog.memory := by
    constructor
    · intro h
      exact congrArg CollectionNamespaceCatalog.memory h
    · intro h
      rw [h]
  unfold KeepsOnError CollectionNamespaceCatalog.persist Program.run durableAtomic Cached.failing
  cases faults.headD .none with
  | none | crashesBefore | crashesAfter => simp [underFault, Keeps]
  | failsBefore | failsAfter => simp [underFault, Keeps, hmemory]

/-- Names that changed are kept in memory exactly when they could not be written. -/
theorem keepsOnError_setMemory_iff {α : Type} (before : CatalogFile) {memory : CatalogFile}
    (value : α) (h : memory ≠ catalog.memory) :
    KeepsOnError catalog (do
      CollectionNamespaceCatalog.setMemory memory
      CollectionNamespaceCatalog.persist
      pure value) { catalog with memory := before } faults ↔ ¬(Cached.failing faults = true) := by
  refine keepsOnError_modify_iff.trans (keepsOnError_map_iff.trans ?_)
  have hpersist : KeepsOnError catalog CollectionNamespaceCatalog.persist
      { catalog with memory } faults ↔ ¬(memory ≠ catalog.memory ∧ Cached.failing faults) :=
    keepsOnError_persist_iff
  rw [and_iff_right h] at hpersist
  exact hpersist

theorem names_ne {file memory : CatalogFile} (project name : String)
    (h : (memory.names project)[name]? ≠ (file.names project)[name]?) : memory ≠ file := by
  intro hsame
  exact h (by rw [hsame])

theorem withProject_eq_iff {file : CatalogFile} {project : String} :
    file.withProject project = file ↔ project ∈ file.projects := by
  have hprojects : file.withProject project = file ↔
      file.projects.insertIfNew project ∅ = file.projects := by
    constructor
    · intro h
      exact congrArg CatalogFile.projects h
    · intro h
      exact congrArg (fun projects => { file with projects }) h
  rw [hprojects]
  constructor
  · intro h
    rw [← h]
    exact Std.ExtTreeMap.mem_insertIfNew.mpr (.inl (compare_eq_iff_eq.mpr rfl))
  · intro h
    apply Std.ExtTreeMap.ext_getElem?
    intro other
    rw [Std.ExtTreeMap.getElem?_insertIfNew, if_neg]
    intro hnew
    rw [compare_eq_iff_eq.mp hnew.1] at h
    exact hnew.2 (compare_eq_iff_eq.mp hnew.1 ▸ h)

theorem mem_projects_of_names {file : CatalogFile} {project name : String}
    (h : name ∈ file.names project) : project ∈ file.projects := by
  by_contra habsent
  rw [CatalogFile.names, Std.ExtTreeMap.getD_eq_getD_getElem?,
    Std.ExtTreeMap.getElem?_eq_none habsent] at h
  exact Std.ExtTreeMap.not_mem_empty h

theorem keepsOnError_create_iff {projectId : ProjectId} {name : CollectionName}
    {entropy : Option (List UInt8)} :
    KeepsOnError catalog (CollectionNamespaceCatalog.create projectId name entropy) catalog
      faults ↔
        ¬((CatalogCall.create projectId name entropy).Alters catalog.memory ∧
            Cached.failing faults ∨
          (CatalogCall.create projectId name entropy).LeavesProject catalog.memory) := by
  refine keepsOnError_modify_iff.trans (keepsOnError_get_iff.trans ?_)
  simp only [CatalogFile.names_withProject, CatalogCall.Alters, CatalogCall.LeavesProject]
  by_cases hname : name.asStr ∈ catalog.memory.names projectId.asStr
  · rw [if_pos hname]
    have hproject := mem_projects_of_names hname
    refine iff_of_true (keepsOnError_throw_iff.mpr ?_) fun h => ?_
    · rw [withProject_eq_iff.mpr hproject]
    · rcases h with h | h
      · exact h.1.1 hname
      · exact h.1 hproject
  · rw [if_neg hname, keepsOnError_lift_iff]
    cases hid : generateCollectionId entropy with
    | error error =>
      have hkept : (({ catalog with memory := catalog.memory.withProject projectId.asStr } :
          CollectionNamespaceCatalog) = catalog) ↔ projectId.asStr ∈ catalog.memory.projects := by
        rw [← withProject_eq_iff]
        constructor
        · intro h
          exact congrArg CollectionNamespaceCatalog.memory h
        · intro h
          rw [h]
      simp [hkept]
    | ok collectionId =>
      have hchanged : (catalog.memory.withProject projectId.asStr).setNames projectId.asStr
          ((catalog.memory.names projectId.asStr).insert name.asStr collectionId.asStr) ≠
            catalog.memory := by
        refine names_ne projectId.asStr name.asStr ?_
        rw [CatalogFile.names_setNames, if_pos rfl, Std.ExtTreeMap.getElem?_insert_self,
          Std.ExtTreeMap.getElem?_eq_none hname]
        exact Option.some_ne_none _
      simp only [reduceCtorEq, false_implies, implies_true, true_and, Except.ok.injEq,
        forall_eq', exists_eq', and_true, exists_false, and_false, or_false, hname,
        not_false_eq_true]
      exact keepsOnError_setMemory_iff _ _ hchanged

theorem keepsOnError_remove_iff {projectId : ProjectId} {name : CollectionName}
    {expected : CollectionId} :
    KeepsOnError catalog (CollectionNamespaceCatalog.remove projectId name expected) catalog
      faults ↔ ¬((CatalogCall.remove projectId name expected).Alters catalog.memory ∧
        Cached.failing faults) := by
  refine keepsOnError_get_iff.trans ?_
  simp only [CatalogCall.Alters, CatalogFile.names, Std.ExtTreeMap.getD_eq_getD_getElem?]
  cases hproject : catalog.memory.projects[projectId.asStr]? with
  | none => exact iff_of_true keepsOnError_pure (by simp)
  | some collections =>
    simp only [Option.getD_some]
    by_cases hbound : collections[name.asStr]? = some expected.asStr
    · rw [if_neg (not_not.mpr hbound), and_iff_right hbound]
      refine keepsOnError_setMemory_iff catalog.memory _ ?_
      have hnames : catalog.memory.names projectId.asStr = collections := by
        rw [CatalogFile.names, Std.ExtTreeMap.getD_eq_getD_getElem?, hproject]
        rfl
      refine names_ne projectId.asStr name.asStr ?_
      rw [hnames, hbound]
      split
      · rw [CatalogFile.names, Std.ExtTreeMap.getD_erase_self]
        simp
      · rw [CatalogFile.names_setNames, if_pos rfl, Std.ExtTreeMap.getElem?_erase_self]
        exact Option.some_ne_none _ |>.symm
    · rw [if_pos hbound]
      exact iff_of_true keepsOnError_pure fun h => hbound h.1

theorem keepsOnError_bindLegacyDefault_iff {collectionId : CollectionId} :
    KeepsOnError catalog (CollectionNamespaceCatalog.bindLegacyDefault collectionId) catalog
      faults ↔ ¬((CatalogCall.bindLegacyDefault collectionId).Alters catalog.memory ∧
        Cached.failing faults) := by
  obtain ⟨name, hname, hasStr⟩ := CatalogFile.collectionNameOf_collectionId collectionId
  unfold CollectionNamespaceCatalog.bindLegacyDefault
  rw [hname, CatalogCall.Alters, ← hasStr]
  refine keepsOnError_ok_iff.trans (keepsOnError_modify_iff.trans (keepsOnError_get_iff.trans ?_))
  simp only [CatalogFile.names_withProject]
  cases hbound : (catalog.memory.names ProjectId.defaultProject.asStr)[name.asStr]? with
  | some existing =>
    have hmem : name.asStr ∈ catalog.memory.names ProjectId.defaultProject.asStr :=
      Std.ExtTreeMap.mem_iff_isSome_getElem?.mpr (Option.isSome_of_eq_some hbound)
    have hsame := withProject_eq_iff.mpr (mem_projects_of_names hmem)
    dsimp only
    split
    · refine iff_of_true (keepsOnError_throw_iff.mpr ?_) fun h => h.1 hmem
      rw [hsame]
    · exact iff_of_true keepsOnError_pure fun h => h.1 hmem
  | none =>
    have habsent : name.asStr ∉ catalog.memory.names ProjectId.defaultProject.asStr := by
      rw [Std.ExtTreeMap.mem_iff_isSome_getElem?, hbound]
      exact Bool.false_ne_true
    rw [and_iff_right habsent]
    refine keepsOnError_setMemory_iff _ _ (names_ne ProjectId.defaultProject.asStr name.asStr ?_)
    rw [CatalogFile.names_setNames, if_pos rfl, Std.ExtTreeMap.getElem?_insert_self, hbound]
    exact Option.some_ne_none _

theorem keepsOnError_catalogCall_iff (call : CatalogCall) :
    KeepsOnError catalog call.program catalog faults ↔
      ¬(call.Alters catalog.memory ∧ Cached.failing faults ∨ call.LeavesProject catalog.memory) := by
  cases call with
  | create projectId name entropy => exact keepsOnError_map_iff.trans keepsOnError_create_iff
  | remove projectId name expected =>
    refine keepsOnError_map_iff.trans (keepsOnError_remove_iff.trans ?_)
    rw [CatalogCall.LeavesProject, or_false]
  | bindLegacyDefault collectionId =>
    refine keepsOnError_map_iff.trans (keepsOnError_bindLegacyDefault_iff.trans ?_)
    rw [CatalogCall.LeavesProject, or_false]

end Catalog

/-! ### All calls -/

/-- A call that returns an error leaves the stores and their files as they were, unless
it changes what is in memory and its write fails, or it leaves an empty project. -/
theorem keepsOnError_iff (sha256 : List UInt8 → List UInt8) (files : Files) (now : ℕ)
    (call : SecurityCall) (stores : SecurityStores) (faults : List Fault) :
    KeepsOnError stores (call.program sha256 files now) stores faults ↔
      ¬(call.Alters sha256 files now stores ∧ Cached.failing faults ∨
        call.LeavesProject stores) := by
  cases call with
  | policies call =>
    have hpart : KeepsOnError stores ((SecurityCall.policies call).program sha256 files now) stores
        faults ↔ KeepsOnError stores.policies ((AuthorizationService.call files call).mapError
          SecurityError.authorization) stores.policies faults := by
      rw [SecurityCall.program]
      exact keepsOnError_onPart_iff (fun _ _ => rfl) fun _ => rfl
    rw [hpart, SecurityCall.Alters, SecurityCall.LeavesProject, or_false]
    exact keepsOnError_mapError_iff.trans (keepsOnError_policyCall_iff call)
  | keys call =>
    have hpart : KeepsOnError stores ((SecurityCall.keys call).program sha256 files now) stores
        faults ↔ KeepsOnError stores.keys ((ApiKeyStore.call sha256 now files call).mapError
          SecurityError.apiKey) stores.keys faults := by
      rw [SecurityCall.program]
      exact (keepsOnError_onPart_iff (fun _ _ => rfl) fun _ => rfl).trans keepsOnError_map_iff
    rw [hpart, SecurityCall.Alters, SecurityCall.LeavesProject, or_false]
    exact keepsOnError_mapError_iff.trans (keepsOnError_keyCall_iff call)
  | catalog call =>
    have hpart : KeepsOnError stores ((SecurityCall.catalog call).program sha256 files now) stores
        faults ↔ KeepsOnError stores.catalog (call.program.mapError SecurityError.catalog)
          stores.catalog faults := by
      rw [SecurityCall.program]
      exact keepsOnError_onPart_iff (fun _ _ => rfl) fun _ => rfl
    rw [hpart, SecurityCall.Alters, SecurityCall.LeavesProject]
    exact keepsOnError_mapError_iff.trans (keepsOnError_catalogCall_iff call)

/-! ### A revocation that cannot be written -/

def issuedKey : StoredKey := ⟨⟨"key", "default", none, 0, 0, none, none⟩, [], []⟩

def issuedStores : SecurityStores :=
  ⟨⟨.default, none⟩, ⟨ApiKeyFile.default.apply (.put "key" issuedKey),
    some (ApiKeyFile.default.apply (.put "key" issuedKey))⟩, ⟨.default, none⟩⟩

/-- The key is revoked in memory although the call failed, and not in the file. -/
theorem not_keepsOnError : ∃ world,
    ((SecurityCall.keys (.revoke "key")).program id Files.empty 1).run issuedStores
        [.failsBefore] = (.error (.apiKey .io), world) ∧
      (world.state.keys.memory.keys["key"]?.bind fun key => key.metadata.revokedAtUnix) = some 1 ∧
      (issuedStores.keys.memory.keys["key"]?.bind fun key => key.metadata.revokedAtUnix) = none ∧
      world.state.keys.disk = issuedStores.keys.disk :=
  ⟨_, rfl, by rfl, by rfl, rfl⟩

end Ketebe.ControlPlane
