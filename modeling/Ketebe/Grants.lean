import Ketebe.AccessApi
import Ketebe.Ownership

/-!
Grants of authority in a project. They are spread over three files, and every check
that some principal passes rests on one that is stored. The operations on them
leave the control plane itself alone.
-/
namespace Ketebe.ControlPlane

open Lib.ByteCodec Lib.WholeFiles Lib.WholeFiles.Task

/-- What can give authority in a project. -/
inductive Grant where
  | member (projectId subject : String)
  | apiKey (projectId id : String)
  | assignment (projectId account : String)
  | claim (projectId key : String)
  | permission (projectId key subject : String)
  deriving DecidableEq

def Grant.projectId : Grant → String
  | .member projectId _ => projectId
  | .apiKey projectId _ => projectId
  | .assignment projectId _ => projectId
  | .claim projectId _ => projectId
  | .permission projectId _ _ => projectId

/-- The grant is stored, and an API key is in force. -/
def holds (files : Files) (now : ℕ) : Grant → Bool
  | .member projectId subject => ((files .projectMembers).members projectId).contains subject
  | .apiKey projectId id => (files .apiKeys).keys[id]?.any fun key =>
      key.metadata.projectId = projectId ∧ validateActive key.metadata now = .ok ()
  | .assignment projectId account => (files .serviceAccounts).accounts[account]?.any fun account =>
      account.assignments.contains projectId
  | .claim projectId key => (files .authorization).collections[key]?.any fun policy =>
      policy.projectId = projectId
  | .permission projectId key subject => (files .authorization).collections[key]?.any fun policy =>
      policy.projectId = projectId ∧ subject ∈ policy.permissions

/-- The result of a task that runs alone. -/
def result {ε α : Type} (files : Files) (task : ApiTask ε α) : Option (Except ε α) :=
  (task.run applyChange none files).2

/-- Some principal passes a check of the service because of the grant. -/
def Authorizes (sha256 : List UInt8 → List UInt8) (files : Files) (now : ℕ) : Grant → Prop
  | .member projectId subject => ∃ (principal : Principal) (id : ProjectId)
      (action : AuthorizationAction), principal.subject = subject ∧ id.asStr = projectId ∧
        ProjectMembershipService.authorize ⟨files .store, files .projectMembers⟩ principal id
          action = .ok ()
  | .apiKey projectId id => ∃ (token secret : String) (principal : Principal),
      parseToken token = some (id, secret) ∧
        result files (authenticateToken sha256 now token) = some (.ok principal) ∧
          principal.workloadProjectId = some projectId
  | .assignment projectId account => ∃ (id : ServiceAccountId) (project : ProjectId)
      (role : ProjectRole), id.asStr = account ∧ project.asStr = projectId ∧
        result files (authorizeServiceAccount id project) = some (.ok role)
  | .claim projectId key => ∃ (principal : Principal) (action : AuthorizationAction)
      (requested collectionId : String) (policy : CollectionPolicy),
      (files .authorization).policyOf requested collectionId = some (key, policy) ∧
        result files (authorizeCollectionInProject principal action requested collectionId) =
          some (.ok (.collection projectId collectionId))
  | .permission projectId key subject => ∃ (principal : Principal) (action : AuthorizationAction)
      (requested collectionId : String) (policy : CollectionPolicy),
      (files .authorization).policyOf requested collectionId = some (key, policy) ∧
        principal.subject = subject ∧ subject ∈ policy.permissions ∧
          result files (authorizeCollectionInProject principal action requested collectionId) =
            some (.ok (.collection projectId collectionId))

section Authorizes

variable {ε α β : Type} {files : Files} {now : ℕ} {sha256 : List UInt8 → List UInt8}

/-- What a task ensures of its result. -/
abbrev ensuring (post : α → Prop) : Ending Content ε α :=
  ⟨fun value _ _ => post value, fun _ _ _ => True⟩

abbrev Ensures (files : Files) (post : α → Prop) (task : ApiTask ε α) : Prop :=
  Ends applyChange (fun _ _ => True) (ensuring post) task 0 files

theorem of_result {task : ApiTask ε α} {value : α} (post : α → Prop) (h : Ensures files post task)
    (hresult : result files task = some (.ok value)) : post value := by
  rcases h.run none with ⟨_, hnone, -⟩ | ⟨_, ⟨_, hsome, hpost⟩ | ⟨_, hsome, -⟩⟩
  · cases hnone
  · cases hresult.symm.trans hsome
    exact hpost
  · cases hresult.symm.trans hsome

theorem ensures_read {task : ApiTask ε α} {next : α → ApiTask ε β} {post : β → Prop}
    (h : task.ReadOnly) (hnext : ∀ value, Ensures files post (next value)) :
    Ensures files post (task >>= next) :=
  ends_read h hnext fun _ => trivial

theorem ensures_lift {plan : Except ε α} {next : α → ApiTask ε β} {post : β → Prop}
    (hnext : ∀ value, plan = .ok value → Ensures files post (next value)) :
    Ensures files post (lift plan >>= next) :=
  ends_lift_bind hnext fun _ => trivial

theorem readOnly_openServiceAccounts : openServiceAccounts.ReadOnly :=
  fun _ => readOnly_ite readOnly_throw (readOnly_openStore.bind fun _ => readOnly_pure)

theorem readOnly_openApiKeys : openApiKeys.ReadOnly :=
  fun _ => readOnly_ite readOnly_throw (readOnly_openStore.bind fun _ => readOnly_pure)

theorem readOnly_openPolicies : openPolicies.ReadOnly :=
  fun _ => readOnly_ite readOnly_throw (readOnly_openStore.bind fun _ => readOnly_pure)

theorem readOnly_ensureActiveProject {id : ProjectId} : (ensureActiveProject id).ReadOnly := by
  apply readOnly_openStore.bind
  intro store
  split
  · exact readOnly_throw
  · exact readOnly_ite readOnly_throw readOnly_pure

theorem readOnly_authorizeServiceAccount {id : ServiceAccountId} {projectId : ProjectId} :
    (authorizeServiceAccount id projectId).ReadOnly := by
  apply readOnly_openServiceAccounts.bind
  intro file
  apply (readOnly_lift _).bind
  intro account
  refine readOnly_ite readOnly_throw (readOnly_ensureActiveProject.bind fun _ => ?_)
  split
  · exact readOnly_throw
  · exact readOnly_pure

theorem readOnly_resolveProject {projectId : String} : (resolveProject projectId).ReadOnly := by
  apply (readOnly_lift _).bind
  intro id
  apply readOnly_openStore.bind
  intro store
  split
  · exact readOnly_throw
  · exact (readOnly_lift _).bind fun _ => readOnly_pure

theorem readOnly_resolveActiveProject {projectId : String} :
    (resolveActiveProject projectId).ReadOnly :=
  readOnly_resolveProject.bind fun _ => readOnly_ite readOnly_throw readOnly_pure

theorem readOnly_resolveServiceAccountRole {metadata : ApiKeyMetadata} :
    (resolveServiceAccountRole metadata).ReadOnly := by
  unfold resolveServiceAccountRole
  split
  · exact readOnly_pure
  · apply (readOnly_lift _).bind
    intro account
    apply (readOnly_lift _).bind
    intro project
    exact readOnly_authorizeServiceAccount.mapError.bind fun _ => readOnly_pure

theorem readOnly_authorizeProjectNamed {principal : Principal} {action : AuthorizationAction}
    {projectId : String} : (authorizeProjectNamed principal action projectId).ReadOnly :=
  (readOnly_lift _).bind fun _ => readOnly_authorizeProject

theorem readOnly_authorizePrincipalProject {principal : Principal} {action : AuthorizationAction} :
    (authorizePrincipalProject principal action).ReadOnly :=
  (readOnly_lift _).bind fun _ => readOnly_authorizeProjectNamed.bind fun _ => readOnly_pure

theorem readOnly_authorizeCollection {principal : Principal} {action : AuthorizationAction}
    {collectionId : String} : (authorizeCollection principal action collectionId).ReadOnly := by
  apply (readOnly_lift _).bind
  intro projectId
  apply readOnly_openPolicies.bind
  intro file
  apply readOnly_authorizeProjectNamed.bind
  intro _
  exact (readOnly_lift _).bind fun _ => readOnly_ite readOnly_throw readOnly_pure

/-! What opening a file gives. -/

theorem ensures_openApiKeys {f : ApiKeyError → ε} {next : ApiKeyFile → ApiTask ε β}
    {post : β → Prop} (h : Ensures files post (next (files .apiKeys))) :
    Ensures files post (openApiKeys.mapError f >>= next) := by
  apply ends_bind
  apply ends_mapError
  show Ends applyChange _ _ (ite _ _ _) 0 files
  split
  · trivial
  · exact h

theorem ensures_openServiceAccounts {next : ServiceAccountFile → ApiTask ServiceAccountError β}
    {post : β → Prop} (h : Ensures files post (next (files .serviceAccounts))) :
    Ensures files post (openServiceAccounts >>= next) := by
  apply ends_bind
  show Ends applyChange _ _ (ite _ _ _) 0 files
  split
  · trivial
  · exact h

theorem ensures_openPolicies {next : PolicyFile → ApiTask AuthorizationError β}
    {post : β → Prop} (h : Ensures files post (next (files .authorization))) :
    Ensures files post (openPolicies >>= next) := by
  apply ends_bind
  show Ends applyChange _ _ (ite _ _ _) 0 files
  split
  · trivial
  · exact h

/-! Authority comes from what is stored. -/

theorem holds_of_member {projectId subject : String}
    (h : Authorizes sha256 files now (.member projectId subject)) :
    holds files now (.member projectId subject) := by
  obtain ⟨principal, id, action, rfl, rfl, hauthorize⟩ := h
  unfold ProjectMembershipService.authorize at hauthorize
  split at hauthorize
  · cases hauthorize
  split at hauthorize
  · cases hauthorize
  obtain ⟨role, hrole, -⟩ := except_bind_ok.mp hauthorize
  unfold MembershipService.roleOf at hrole
  split at hrole
  · cases hrole
  · rename_i hmember
    exact Std.ExtTreeMap.mem_iff_isSome_getElem?.mpr (Option.isSome_of_eq_some hmember)

theorem projectId_of_keyPrincipal {metadata : ApiKeyMetadata} {role : Option ProjectRole}
    {principal : Principal} (h : keyPrincipal metadata role = .ok principal) :
    principal.workloadProjectId = some metadata.projectId := by
  have hworkload {subject projectId : String} {principal : Principal}
      (h : Principal.forWorkloadProject subject projectId = .ok principal) :
      principal.workloadProjectId = some projectId := by
    obtain ⟨created, -, h⟩ := except_bind_ok.mp h
    split at h
    · cases h
    · cases h
      rfl
  cases role with
  | none => exact hworkload h
  | some role =>
    obtain ⟨created, hcreated, h⟩ := except_bind_ok.mp h
    have hproject := hworkload hcreated
    cases h
    exact hproject

theorem holds_of_apiKey {projectId id : String}
    (h : Authorizes sha256 files now (.apiKey projectId id)) :
    holds files now (.apiKey projectId id) := by
  obtain ⟨token, secret, principal, htoken, hresult, hproject⟩ := h
  refine of_result (fun principal => principal.workloadProjectId = some projectId →
    holds files now (.apiKey projectId id)) ?_ hresult hproject
  unfold authenticateToken
  rw [htoken]
  apply ensures_openApiKeys
  apply ensures_lift
  intro key hkey
  apply ensures_lift
  intro _ hactive
  apply ensures_read readOnly_resolveActiveProject.mapError
  intro _
  apply ensures_read readOnly_resolveServiceAccountRole.mapError
  intro role
  split
  · trivial
  refine ends_lift (fun principal hprincipal hproject => ?_) fun _ _ => trivial
  have hkey := mapError_ok_iff.mp hkey
  unfold storedKey at hkey
  split at hkey
  · cases hkey
  · rename_i hstored
    cases hkey
    have hsame := Option.some.inj ((projectId_of_keyPrincipal hprincipal).symm.trans hproject)
    rw [holds, hstored]
    exact decide_eq_true ⟨hsame, mapError_ok_iff.mp hactive⟩

theorem holds_of_assignment {projectId account : String}
    (h : Authorizes sha256 files now (.assignment projectId account)) :
    holds files now (.assignment projectId account) := by
  obtain ⟨id, project, role, rfl, rfl, hresult⟩ := h
  refine of_result (fun _ => holds files now (.assignment project.asStr id.asStr)) ?_ hresult
  apply ensures_openServiceAccounts
  apply ensures_lift
  intro account haccount
  split
  · trivial
  apply ensures_read readOnly_ensureActiveProject
  intro _
  split
  · trivial
  · rename_i hrole
    unfold ServiceAccountFile.account at haccount
    split at haccount
    · cases haccount
    · rename_i hstored
      cases haccount
      show holds files now (.assignment project.asStr id.asStr)
      rw [holds, hstored]
      exact Std.ExtTreeMap.mem_iff_isSome_getElem?.mpr (Option.isSome_of_eq_some hrole)

theorem policy_of_authorizeCollection {principal : Principal} {action : AuthorizationAction}
    {requested collectionId key projectId : String} {policy : CollectionPolicy}
    (hpolicy : (files .authorization).policyOf requested collectionId = some (key, policy))
    (hresult : result files (authorizeCollectionInProject principal action requested
      collectionId) = some (.ok (.collection projectId collectionId))) :
    (files .authorization).collections[key]? = some policy ∧ policy.projectId = projectId := by
  refine ⟨PolicyFile.collections_of_policyOf hpolicy, of_result (fun resource => resource = .collection projectId collectionId →
    policy.projectId = projectId) ?_ hresult rfl⟩
  apply ensures_openPolicies
  apply ensures_read readOnly_authorizeProjectNamed
  intro _
  apply ensures_lift
  intro found hfound
  rw [foundPolicy, hpolicy] at hfound
  cases hfound
  split
  · trivial
  · intro hsame
    cases hsame
    rfl

theorem holds_of_authorizes {grant : Grant} (h : Authorizes sha256 files now grant) :
    holds files now grant := by
  cases grant with
  | member => exact holds_of_member h
  | apiKey => exact holds_of_apiKey h
  | assignment => exact holds_of_assignment h
  | claim projectId key =>
    obtain ⟨principal, action, requested, collectionId, policy, hpolicy, hresult⟩ := h
    obtain ⟨hstored, hproject⟩ := policy_of_authorizeCollection hpolicy hresult
    rw [holds, hstored]
    exact decide_eq_true hproject
  | permission projectId key subject =>
    obtain ⟨principal, action, requested, collectionId, policy, hpolicy, -, hsubject, hresult⟩ := h
    obtain ⟨hstored, hproject⟩ := policy_of_authorizeCollection hpolicy hresult
    rw [holds, hstored]
    exact decide_eq_true ⟨hproject, hsubject⟩

end Authorizes

/-! ### Operations that leave the control plane alone -/

def Foreign (file : File) : Prop :=
  file = .authorization ∨ file = .apiKeys ∨ file = .serviceAccounts

section Foreign

variable {ε α : Type} {sha256 : List UInt8 → List UInt8} {now : ℕ}

theorem writesOnly_persistPolicies {file : PolicyFile} {change : PolicyChange} :
    (persistPolicies file change).WritesOnly Foreign :=
  ⟨.inl rfl, fun succeeded => by cases succeeded <;> trivial⟩

theorem writesOnly_persistApiKeys {file : ApiKeyFile} {id : String} {key : StoredKey} :
    (persistApiKeys file id key).WritesOnly Foreign :=
  ⟨.inr (.inl rfl), fun succeeded => by cases succeeded <;> trivial⟩

theorem writesOnly_persistServiceAccounts {file : ServiceAccountFile}
    {change : ServiceAccountChange} : (persistServiceAccounts file change).WritesOnly Foreign :=
  ⟨.inr (.inr rfl), fun succeeded => by cases succeeded <;> trivial⟩

theorem writesOnly_ite {condition : Prop} [Decidable condition] {task other : ApiTask ε α}
    (h : task.WritesOnly Foreign) (hother : other.WritesOnly Foreign) :
    (if condition then task else other).WritesOnly Foreign := by
  by_cases hcondition : condition
  · rwa [if_pos hcondition]
  · rwa [if_neg hcondition]

theorem writesOnly_putServiceAccount {file : ServiceAccountFile} {id : ServiceAccountId}
    {plan : Except ServiceAccountError ServiceAccount} :
    (putServiceAccount file id plan).WritesOnly Foreign :=
  (readOnly_lift _).writesOnly.bind fun _ =>
    writesOnly_persistServiceAccounts.bind fun _ => trivial

theorem ServiceAccountCall.writesOnly (call : ServiceAccountCall) :
    (call.task now).WritesOnly Foreign := by
  cases call with
  | create id name | setLifecycle id lifecycle | removeProjectAssignment id projectId =>
    exact readOnly_openServiceAccounts.writesOnly.bind fun _ => writesOnly_putServiceAccount
  | delete id =>
    apply readOnly_openServiceAccounts.writesOnly.bind
    intro file
    apply (readOnly_lift _).writesOnly.bind
    intro account
    exact writesOnly_persistServiceAccounts.bind fun _ => trivial
  | assignProject id projectId role =>
    apply readOnly_openServiceAccounts.writesOnly.bind
    intro file
    exact readOnly_ensureActiveProject.writesOnly.bind fun _ => writesOnly_putServiceAccount

theorem writesOnly_issue {file : ApiKeyFile} {projectId : String} {account : Option String}
    {expires : Option ℕ} {entropy : Option KeyEntropy} :
    (issue sha256 now file projectId account expires entropy).WritesOnly Foreign := by
  unfold issue
  split
  · trivial
  · exact writesOnly_persistApiKeys.bind fun _ => trivial

theorem ApiKeyCall.writesOnly (call : ApiKeyCall) :
    (call.task sha256 now).WritesOnly Foreign := by
  cases call with
  | create projectId expires entropy =>
    refine WritesOnly.bind ?_ fun _ => trivial
    apply readOnly_openApiKeys.writesOnly.bind
    intro file
    apply (readOnly_lift _).writesOnly.bind
    intro projectId
    exact readOnly_resolveActiveProject.writesOnly.bind fun _ => writesOnly_issue
  | createForServiceAccount account projectId expires entropy =>
    refine WritesOnly.bind ?_ fun _ => trivial
    apply readOnly_openApiKeys.writesOnly.bind
    intro file
    apply (readOnly_lift _).writesOnly.bind
    intro projectId
    apply readOnly_resolveActiveProject.writesOnly.bind
    intro _
    apply (readOnly_lift _).writesOnly.bind
    intro project
    exact readOnly_authorizeServiceAccount.mapError.writesOnly.bind fun _ => writesOnly_issue
  | revoke id =>
    apply readOnly_openApiKeys.writesOnly.bind
    intro file
    apply (readOnly_lift _).writesOnly.bind
    intro key
    exact writesOnly_persistApiKeys.bind fun _ => trivial
  | rotate id entropy =>
    refine WritesOnly.bind ?_ fun _ => trivial
    apply readOnly_openApiKeys.writesOnly.bind
    intro file
    apply (readOnly_lift _).writesOnly.bind
    intro key
    apply (readOnly_lift _).writesOnly.bind
    intro _
    apply readOnly_resolveActiveProject.writesOnly.bind
    intro _
    apply readOnly_resolveServiceAccountRole.writesOnly.bind
    intro _
    split
    · trivial
    · exact writesOnly_persistApiKeys.bind fun _ => trivial

theorem PolicyCall.writesOnly (call : PolicyCall) : call.task.WritesOnly Foreign := by
  cases call with
  | setProjectRole projectId subject role =>
    exact readOnly_openPolicies.writesOnly.bind fun _ => writesOnly_persistPolicies
  | setCollectionPermission projectId collectionId subject permission =>
    apply readOnly_openPolicies.writesOnly.bind
    intro file
    exact (readOnly_lift _).writesOnly.bind fun _ => writesOnly_persistPolicies
  | claimCollection principal collectionId =>
    refine WritesOnly.bind ?_ fun _ => trivial
    apply readOnly_openPolicies.writesOnly.bind
    intro file
    apply readOnly_authorizePrincipalProject.writesOnly.bind
    intro projectId
    split
    · exact writesOnly_ite trivial trivial
    · exact writesOnly_persistPolicies.bind fun _ => trivial
  | releaseCollectionClaimForPrincipal principal collectionId outcome =>
    refine writesOnly_ite trivial ((readOnly_lift _).writesOnly.bind fun _ => ?_)
    exact readOnly_openPolicies.writesOnly.bind fun _ => writesOnly_persistPolicies
  | releaseCollectionClaim collectionId outcome =>
    refine writesOnly_ite trivial ?_
    exact readOnly_openPolicies.writesOnly.bind fun _ => writesOnly_persistPolicies
  | removeCollection principal collectionId =>
    apply readOnly_authorizeCollection.writesOnly.bind
    intro _
    apply (readOnly_lift _).writesOnly.bind
    intro projectId
    exact readOnly_openPolicies.writesOnly.bind fun _ => writesOnly_persistPolicies

/-- A call that writes none of its files leaves the control plane as it was. -/
theorem leaves_of_writesOnly {task : ApiTask ε α} {stop : Option ℕ} {files : Files}
    (hsane : Sane files) (h : task.WritesOnly Foreign) :
    Leaves none files (task.run applyChange stop files).1 := by
  have hends : Ends applyChange (fun _ => Leaves none files) (leaving none files) task 0 files := by
    apply h.ends
    intro after hsame
    have hstore : after .store = files .store := hsame .store (by simp [Foreign])
    have horganizations : after .organizationMembers = files .organizationMembers :=
      hsame .organizationMembers (by simp [Foreign])
    have hprojects : after .projectMembers = files .projectMembers :=
      hsame .projectMembers (by simp [Foreign])
    refine ⟨?_, fun id hid => .inl (hstore ▸ hid)⟩
    rw [Sane, hstore, horganizations, hprojects]
    exact hsane
  rcases hends.run stop with ⟨_, -, hleaves⟩ | ⟨_, ⟨_, -, hleaves⟩ | ⟨_, -, hleaves⟩⟩ <;>
    exact hleaves

end Foreign

end Ketebe.ControlPlane
