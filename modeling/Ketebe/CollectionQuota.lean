import Ketebe.Lib.Tally
import Ketebe.ProjectDeletion
import Ketebe.RequestAuthorization
import Ketebe.TenantPolicies

/-!
The quota of collections beside concurrent requests. A creation compares the number of
collections with the quota in one store before it claims a name in another one. Between
the two it counts nowhere, so that other creations pass the same comparison.
-/
namespace Ketebe.ControlPlane

open Lib.ByteCodec Lib.CachedFile Lib.Durable Lib.Durable.Program Lib.Runs Lib.Tally

/-! ### The sections of the calls -/

namespace AuthorizationService

/-- `claim_collection` after its check. -/
def insertClaim (projectId collectionId : String) : PolicyProgram ClaimOutcome := do
  let service ← get
  match service.memory.collections[collectionPolicyKey projectId collectionId]? with
  | some existing =>
      if existing.projectId = projectId then pure .existing else throw .ownershipConflict
  | none => do
      change (.putCollection (collectionPolicyKey projectId collectionId) ⟨projectId, ∅⟩)
      pure .inserted

/-- `remove_collection` after its check. -/
def removePolicies (principal : Principal) (collectionId : String) : PolicyProgram Unit := do
  let projectId ← Program.lift (pinnedProject principal)
  let service ← get
  change (.removeCollections (removedKeys service.memory projectId collectionId))

end AuthorizationService

/-! ### Requests -/

inductive Transport where
  | http
  | grpc
  deriving DecidableEq, Repr

/-- A creation goes through the same operations over both transports. -/
inductive QuotaRequest where
  | createCollection (principal : Principal) (name : String) (entropy : Option (List UInt8))
  | deleteCollection (transport : Transport) (principal : Principal) (name : String)

/-- What a request does next. -/
inductive QuotaPhase where
  /-- `create_collection`: the middleware, or `grpc_authorize_create`. -/
  | authorizing (principal : Principal) (name : String) (entropy : Option (List UInt8))
  | admitting (principal : Principal) (name : String) (entropy : Option (List UInt8))
      (projectId : String)
  | counting (principal : Principal) (name : String) (entropy : Option (List UInt8))
      (projectId : String)
  | comparing (principal : Principal) (name : String) (entropy : Option (List UInt8))
      (projectId : String) (current : ℕ)
  /-- The handler: it admits the write, reads the body and creates the scope. -/
  | naming (principal : Principal) (name : String) (entropy : Option (List UInt8))
  | authorizingClaim (principal : Principal) (name : String) (collectionId : CollectionId)
  | insertingClaim (principal : Principal) (name : String) (collectionId : CollectionId)
      (projectId : String)
  | storing (principal : Principal) (name : String) (collectionId : CollectionId)
      (claim : ClaimOutcome)
  | releasingClaim (principal : Principal) (name : String) (collectionId : CollectionId)
      (claim : ClaimOutcome)
  | removingName (principal : Principal) (name : String) (collectionId : CollectionId)
  /-- `delete_collection`, which resolves the name after the check over HTTP and before it
  over gRPC. -/
  | authorizingDeletion (principal : Principal) (name : String) (resolved : Option CollectionId)
  | admittingDeletion (principal : Principal) (name : String) (resolved : Option CollectionId)
      (projectId : String)
  | resolving (principal : Principal) (name : String) (authorized : Bool)
  | deletingStored (principal : Principal) (name : String) (collectionId : CollectionId)
  | authorizingRemoval (principal : Principal) (name : String) (collectionId : CollectionId)
  | removingPolicies (principal : Principal) (name : String) (collectionId : CollectionId)

def QuotaRequest.start : QuotaRequest → QuotaPhase
  | .createCollection principal name entropy => .authorizing principal name entropy
  | .deleteCollection .http principal name => .authorizingDeletion principal name none
  | .deleteCollection .grpc principal name => .resolving principal name false

/-- The stores that the requests work on, and the requests in flight. -/
structure QuotaServer where
  mode : AuthorizationMode
  files : Files
  policies : Cached PolicyFile
  dataPlane : DataPlane
  governance : AdmissionService
  requests : List QuotaPhase

/-- A request arrives or goes on at some time. Which of its writes fail is up to the event,
and so is whether the data of a collection can be stored or deleted. Other services change
the files that checks read. -/
inductive QuotaEvent where
  | receive (request : QuotaRequest)
  | advance (index now : ℕ) (succeeds : Bool) (failures : List Bool)
  | administer (files : Files)

namespace QuotaServer

variable (server : QuotaServer)

/-- `project_collection_count`. -/
def projectCollectionCount (projectId : String) : ℕ :=
  if server.mode = .development then 0
  else AuthorizationService.projectCollectionCount server.policies.memory projectId

def authorizePrincipalProject (principal : Principal) : Except AuthorizationError String :=
  if server.mode = .development then .ok "development"
  else ask server.files (ControlPlane.authorizePrincipalProject principal .collectionCreate)

def authorizeDeletion (principal : Principal) (name : String) :
    Except AuthorizationError AuthorizationResource :=
  if server.mode = .development then .ok (.collection "development" name)
  else AuthorizationService.authorizeCollection server.files server.policies.memory principal
    .collectionDelete name

def admitProject (projectId : String) (admission : AdmissionClass) (now : ℕ)
    (next : QuotaPhase) : QuotaServer × Option QuotaPhase :=
  match server.governance.admitAt projectId admission now with
  | (.ok _, governance) => ({ server with governance }, some next)
  | (.error _, governance) => ({ server with governance }, none)

/-- The writes of one operation. -/
def writes (failures : List Bool) : List Fault :=
  failures.map fun fails => if fails then .failsBefore else .none

/-- One operation of the catalog of names. -/
def onDataPlane {α : Type} (program : DataPlane.RequestProgram α) (failures : List Bool)
    (next : α → Option QuotaPhase) : QuotaServer × Option QuotaPhase :=
  match program.run server.dataPlane (writes failures) with
  | (.ok value, world) => ({ server with dataPlane := world.state }, next value)
  | (_, world) => ({ server with dataPlane := world.state }, none)

/-- One operation of the policies. -/
def onPolicies {α : Type} (program : PolicyProgram α) (failures : List Bool)
    (next : α → Option QuotaPhase) (failed : Option QuotaPhase) :
    QuotaServer × Option QuotaPhase :=
  match program.run server.policies (writes failures) with
  | (.ok value, world) => ({ server with policies := world.state }, next value)
  | (_, world) => ({ server with policies := world.state }, failed)

/-- The next phase of a request, and the server after this one. -/
def advance (now : ℕ) (succeeds : Bool) (failures : List Bool) :
    QuotaPhase → QuotaServer × Option QuotaPhase
  | .authorizing principal name entropy =>
      match server.authorizePrincipalProject principal with
      | .ok projectId => (server, some (.admitting principal name entropy projectId))
      | .error _ => (server, none)
  | .admitting principal name entropy projectId =>
      server.admitProject projectId .write now (.counting principal name entropy projectId)
  | .counting principal name entropy projectId =>
      (server, some (.comparing principal name entropy projectId
        (server.projectCollectionCount projectId)))
  | .comparing principal name entropy projectId current =>
      match server.governance.checkCollectionQuota projectId current 1 with
      | .ok () => (server, some (.naming principal name entropy))
      | .error _ => (server, none)
  | .naming principal name entropy =>
      if succeeds then
        server.onDataPlane (DataPlane.createScope principal name entropy) failures
          fun scope => some (.authorizingClaim principal name scope.collectionId)
      else (server, none)
  | .authorizingClaim principal name collectionId =>
      if server.mode = .development then (server, some (.storing principal name collectionId .existing))
      else match server.authorizePrincipalProject principal with
        | .ok projectId => (server, some (.insertingClaim principal name collectionId projectId))
        | .error _ => (server, some (.removingName principal name collectionId))
  | .insertingClaim principal name collectionId projectId =>
      server.onPolicies (AuthorizationService.insertClaim projectId name) failures
        (fun claim => some (.storing principal name collectionId claim))
        (some (.removingName principal name collectionId))
  | .storing principal name collectionId claim =>
      if succeeds then
        let scope := (principalProject principal).toOption.map fun projectId =>
          ⟨projectId, collectionId⟩
        ({ server with dataPlane.runtimes := server.dataPlane.runtimes.insert collectionId scope },
          none)
      else (server, some (.releasingClaim principal name collectionId claim))
  | .releasingClaim principal name collectionId claim =>
      if server.mode = .development then (server, some (.removingName principal name collectionId))
      else server.onPolicies
        (AuthorizationService.releaseCollectionClaimForPrincipal principal name claim) failures
        (fun _ => some (.removingName principal name collectionId))
        (some (.removingName principal name collectionId))
  | .removingName principal name collectionId =>
      server.onDataPlane (DataPlane.removeScope principal name collectionId) failures fun _ => none
  | .authorizingDeletion principal name resolved =>
      match server.authorizeDeletion principal name with
      | .ok (.collection projectId _) =>
          (server, some (.admittingDeletion principal name resolved projectId))
      | .ok (.project _) | .error _ => (server, none)
  | .admittingDeletion principal name resolved projectId =>
      server.admitProject projectId .admin now (match resolved with
        | some collectionId => .deletingStored principal name collectionId
        | none => .resolving principal name true)
  | .resolving principal name authorized =>
      if succeeds then
        server.onDataPlane (DataPlane.resolveExistingScope principal name) failures fun scope =>
          some (if authorized then .deletingStored principal name scope.collectionId
            else .authorizingDeletion principal name (some scope.collectionId))
      else (server, none)
  | .deletingStored principal name collectionId =>
      if succeeds then
        ({ server with dataPlane.runtimes := server.dataPlane.runtimes.erase collectionId },
          some (.authorizingRemoval principal name collectionId))
      else (server, none)
  | .authorizingRemoval principal name collectionId =>
      if server.mode = .development then (server, some (.removingName principal name collectionId))
      else match server.authorizeDeletion principal name with
        | .ok _ => (server, some (.removingPolicies principal name collectionId))
        | .error _ => (server, none)
  | .removingPolicies principal name collectionId =>
      server.onPolicies (AuthorizationService.removePolicies principal name) failures
        (fun _ => some (.removingName principal name collectionId)) none

/-- A request without a next phase is answered. -/
def proceed (index : ℕ) : QuotaServer × Option QuotaPhase → QuotaServer
  | (server, some phase) => { server with requests := server.requests.set index phase }
  | (server, none) => { server with requests := server.requests.eraseIdx index }

def step (server : QuotaServer) : QuotaEvent → QuotaServer
  | .receive request => { server with requests := server.requests ++ [request.start] }
  | .advance index now succeeds failures =>
      match server.requests[index]? with
      | some phase => proceed index (server.advance now succeeds failures phase)
      | none => server
  | .administer files => { server with files }

end QuotaServer

/-! ### Collections and reservations -/

section Policies

variable {file : PolicyFile} {store : Cached PolicyFile}

theorem projectCollectionCount_eq (file : PolicyFile) (projectId : String) :
    AuthorizationService.projectCollectionCount file projectId =
      number (fun policy => policy.projectId = projectId) file.collections :=
  List.countP_eq_length_filter.symm

theorem projectCollectionCount_removeCollections (file : PolicyFile) (keys : List String)
    (projectId : String) :
    AuthorizationService.projectCollectionCount (file.apply (.removeCollections keys)) projectId ≤
      AuthorizationService.projectCollectionCount file projectId := by
  rw [projectCollectionCount_eq, projectCollectionCount_eq, PolicyFile.apply,
    PolicyFile.eraseMany_eq_foldl]
  generalize file.collections = table
  dsimp only
  induction keys generalizing table with
  | nil => exact le_rfl
  | cons key rest ih => exact (ih (table.erase key)).trans (number_erase_le _)

theorem projectCollectionCount_claim {key : String} (hnew : file.collections[key]? = none)
    (claimed projectId : String) :
    AuthorizationService.projectCollectionCount (file.apply (.putCollection key ⟨claimed, ∅⟩))
        projectId =
      AuthorizationService.projectCollectionCount file projectId +
        (decide (claimed = projectId)).toNat := by
  rw [projectCollectionCount_eq, projectCollectionCount_eq]
  exact number_insert_new _ hnew

/-- However the program ends, the project owns at most so many collections. -/
def ownsAtMost {α : Type} (projectId : String) (bound : ℕ) :
    Post (Cached PolicyFile) AuthorizationError α where
  ok _ store := AuthorizationService.projectCollectionCount store.memory projectId ≤ bound
  error _ store := AuthorizationService.projectCollectionCount store.memory projectId ≤ bound
  crashed store := AuthorizationService.projectCollectionCount store.memory projectId ≤ bound

theorem insertClaim_ownsAtMost (claimed collectionId projectId : String) :
    (AuthorizationService.insertClaim claimed collectionId).Ensures (ownsAtMost projectId
      (AuthorizationService.projectCollectionCount store.memory projectId +
        (decide (claimed = projectId)).toNat)) store := by
  apply ensures_getBind
  split
  · split
    · exact ensures_pure (Nat.le_add_right _ _)
    · exact ensures_throw (Nat.le_add_right _ _)
  · rename_i hnew
    have hcount := (projectCollectionCount_claim hnew claimed projectId).le
    apply ensures_bind
    exact Cached.ensures_commit (ensures_pure hcount) hcount hcount hcount

theorem release_ownsAtMost (principal : Principal) (collectionId projectId : String)
    (claim : ClaimOutcome) :
    (AuthorizationService.releaseCollectionClaimForPrincipal principal collectionId claim).Ensures
      (ownsAtMost projectId (AuthorizationService.projectCollectionCount store.memory projectId))
      store := by
  unfold AuthorizationService.releaseCollectionClaimForPrincipal
  split
  · exact ensures_pure le_rfl
  · apply ensures_bind
    refine Program.ensures_lift (fun pinned _ => ?_) fun _ _ => le_rfl
    have hcount := projectCollectionCount_removeCollections store.memory
      [collectionPolicyKey pinned collectionId] projectId
    exact Cached.ensures_commit hcount hcount hcount hcount

theorem removePolicies_ownsAtMost (principal : Principal) (collectionId projectId : String) :
    (AuthorizationService.removePolicies principal collectionId).Ensures
      (ownsAtMost projectId (AuthorizationService.projectCollectionCount store.memory projectId))
      store := by
  apply ensures_bind
  refine Program.ensures_lift (fun pinned _ => ?_) fun _ _ => le_rfl
  apply ensures_getBind
  have hcount := projectCollectionCount_removeCollections store.memory
    (removedKeys store.memory pinned collectionId) projectId
  exact Cached.ensures_commit hcount hcount hcount hcount

end Policies

namespace QuotaPhase

/-- A creation for the project that has passed the comparison and not yet claimed. -/
def reserves (projectId : String) : QuotaPhase → Bool
  | .naming principal .. | .authorizingClaim principal .. =>
      principal.workloadProjectId = some projectId
  | .insertingClaim _ _ _ claimed => claimed = projectId
  | _ => false

def claims : QuotaPhase → Bool
  | .insertingClaim .. => true
  | _ => false

end QuotaPhase

namespace QuotaServer

variable (server : QuotaServer)

/-- The number of collections that the project owns. -/
def owned (projectId : String) : ℕ :=
  AuthorizationService.projectCollectionCount server.policies.memory projectId

def reserved (projectId : String) : ℕ := server.requests.countP (·.reserves projectId)

/-- The quota of the project. -/
def limit (projectId : String) : Option ℕ :=
  server.governance.policies[projectId]?.bind (·.quota.maxCollections)

/-- A creation for the project is about to pass the comparison. -/
def passes (projectId : String) : QuotaPhase → Bool
  | .comparing principal _ _ checked current =>
      principal.workloadProjectId = some projectId ∧
        (server.governance.checkCollectionQuota checked current 1).isOk
  | _ => false

/-- Where creations are authorized, one passes the comparison only while the collections of
its project and those on the way leave room for another one. -/
def LeavesRoom (projectId : String) (server : QuotaServer) : QuotaEvent → Prop
  | .receive _ | .administer _ => True
  | .advance index _ _ _ => server.mode = .required → ∀ limit ∈ server.limit projectId,
      ∀ phase ∈ server.requests[index]?, server.passes projectId phase →
        server.owned projectId + server.reserved projectId < limit

/-- What every such run preserves. -/
structure Within (projectId : String) (limit : ℕ) (server : QuotaServer) : Prop where
  limit_eq : server.limit projectId = some limit
  owned_le : server.owned projectId ≤ limit
  room : server.mode = .required →
    server.owned projectId + server.reserved projectId ≤ limit
  development : server.mode = .development → ∀ phase ∈ server.requests, phase.claims = false

/-- What a phase may change. -/
structure Advances (server : QuotaServer) (projectId : String) (phase : QuotaPhase)
    (outcome : QuotaServer × Option QuotaPhase) : Prop where
  mode : outcome.1.mode = server.mode
  requests : outcome.1.requests = server.requests
  limit : outcome.1.limit projectId = server.limit projectId
  owned_le : phase.claims = false → outcome.1.owned projectId ≤ server.owned projectId
  room : server.mode = .required →
    outcome.1.owned projectId + (outcome.2.any (·.reserves projectId)).toNat ≤
      server.owned projectId + (phase.reserves projectId).toNat +
        (server.passes projectId phase).toNat
  development : server.mode = .development → ∀ next ∈ outcome.2, next.claims = false

variable {server} {projectId : String} {phase : QuotaPhase} {now : ℕ} {succeeds : Bool}
  {failures : List Bool}

/-- The policies stay, and the next phase reserves no more than this one. -/
theorem advances_quiet {after : QuotaServer} {next : Option QuotaPhase}
    (hmode : after.mode = server.mode) (hrequests : after.requests = server.requests)
    (hlimit : after.limit projectId = server.limit projectId)
    (hpolicies : after.policies = server.policies)
    (hreserves : server.mode = .required → ∀ later ∈ next, later.reserves projectId →
      phase.reserves projectId ∨ server.passes projectId phase)
    (hclaims : server.mode = .development → ∀ later ∈ next, later.claims = false) :
    Advances server projectId phase (after, next) := by
  have howned : after.owned projectId = server.owned projectId := by
    rw [owned, hpolicies]
    rfl
  refine ⟨hmode, hrequests, hlimit, fun _ => howned.le, fun hrequired => ?_, hclaims⟩
  dsimp only
  rw [howned, Nat.add_assoc]
  refine Nat.add_le_add_left ?_ _
  cases next with
  | none => exact Nat.zero_le _
  | some later =>
    rw [Option.any_some]
    cases hlater : later.reserves projectId with
    | false => exact Nat.zero_le _
    | true =>
      rcases hreserves hrequired later rfl hlater with h | h
      · rw [h]
        exact Nat.le_add_right _ _
      · rw [h]
        exact Nat.le_add_left _ _

/-- Nothing but the phase changes, and the next one is not about a claim. -/
theorem advances_to {next : QuotaPhase} (hreserves : next.reserves projectId = false)
    (hclaims : next.claims = false) : Advances server projectId phase (server, some next) := by
  refine advances_quiet rfl rfl rfl rfl (fun _ later hlater hlast => ?_) fun _ later hlater => ?_
  · cases hlater
    cases hreserves.symm.trans hlast
  · cases hlater
    exact hclaims

theorem advances_end : Advances server projectId phase (server, none) :=
  advances_quiet rfl rfl rfl rfl (fun _ _ hlater => nomatch hlater) fun _ _ hlater => nomatch hlater

theorem advances_onDataPlane {α : Type} (program : DataPlane.RequestProgram α)
    {next : α → Option QuotaPhase}
    (hnext : ∀ value, ∀ later ∈ next value,
      (later.reserves projectId → phase.reserves projectId) ∧ later.claims = false) :
    Advances server projectId phase (server.onDataPlane program failures next) := by
  unfold onDataPlane
  split
  · rename_i value world _
    exact advances_quiet rfl rfl rfl rfl
      (fun _ later hlater hreserves => .inl ((hnext value later hlater).1 hreserves))
      fun _ later hlater => (hnext value later hlater).2
  · exact advances_quiet rfl rfl rfl rfl (fun _ _ hlater => nomatch hlater)
      fun _ _ hlater => nomatch hlater

theorem policies_admitAt (governance : AdmissionService) (admitted : String)
    (admission : AdmissionClass) (now : ℕ) :
    (governance.admitAt admitted admission now).2.policies = governance.policies := by
  unfold AdmissionService.admitAt
  split
  · rfl
  · dsimp only
    split <;> rfl

theorem advances_admitProject (admitted : String) (admission : AdmissionClass) {next : QuotaPhase}
    (hreserves : next.reserves projectId = false) (hclaims : next.claims = false) :
    Advances server projectId phase (server.admitProject admitted admission now next) := by
  have hpolicies := policies_admitAt server.governance admitted admission now
  have hlimit (after : QuotaServer)
      (hafter : after.governance.policies = server.governance.policies) :
      after.limit projectId = server.limit projectId := by
    rw [limit, hafter, limit]
  unfold admitProject
  split
  · rename_i hdecided
    rw [hdecided] at hpolicies
    refine advances_quiet rfl rfl (hlimit _ hpolicies) rfl (fun _ later hlater hreserved => ?_)
      fun _ later hlater => ?_
    · cases hlater
      cases hreserves.symm.trans hreserved
    · cases hlater
      exact hclaims
  · rename_i hdecided
    rw [hdecided] at hpolicies
    exact advances_quiet rfl rfl (hlimit _ hpolicies) rfl (fun _ _ hlater => nomatch hlater)
      fun _ _ hlater => nomatch hlater

/-- An operation on the policies after which the project owns at most as many collections. -/
theorem advances_onPolicies {α : Type} {program : PolicyProgram α} {bound : ℕ}
    {next : α → Option QuotaPhase} {failed : Option QuotaPhase}
    (hprogram : program.Ensures (ownsAtMost projectId bound) server.policies)
    (hclaims : phase.claims = false → bound ≤ server.owned projectId)
    (hbound : bound ≤ server.owned projectId + (phase.reserves projectId).toNat)
    (hnext : ∀ value, ∀ later ∈ next value,
      later.reserves projectId = false ∧ later.claims = false)
    (hfailed : ∀ later ∈ failed, later.reserves projectId = false ∧ later.claims = false) :
    Advances server projectId phase (server.onPolicies program failures next failed) := by
  have hends := hprogram (writes failures)
  have hadvances (after : Cached PolicyFile) (later : Option QuotaPhase)
      (hafter : AuthorizationService.projectCollectionCount after.memory projectId ≤ bound)
      (hlater : ∀ phase ∈ later, phase.reserves projectId = false ∧ phase.claims = false) :
      Advances server projectId phase ({ server with policies := after }, later) := by
    refine ⟨rfl, rfl, rfl, fun h => hafter.trans (hclaims h), fun _ => ?_,
      fun _ next hnext => (hlater next hnext).2⟩
    have hnone : later.any (·.reserves projectId) = false := by
      cases later with
      | none => rfl
      | some next => exact (hlater next rfl).1
    dsimp only
    rw [hnone]
    exact (hafter.trans hbound).trans (Nat.le_add_right _ _)
  unfold onPolicies
  split
  · rename_i value world heq
    rw [heq] at hends
    exact hadvances world.state (next value) hends (hnext value)
  · rename_i ending world hother heq
    rw [heq] at hends
    refine hadvances world.state failed ?_ hfailed
    cases ending with
    | ok value => exact (hother value rfl).elim
    | error error => exact hends
    | crashed => exact hends

theorem authorizePrincipalProject_required {principal : Principal} {claimed : String}
    (hrequired : server.mode = .required)
    (h : server.authorizePrincipalProject principal = .ok claimed) :
    principal.workloadProjectId = some claimed := by
  have hmode : ¬server.mode = .development := by
    rw [hrequired]
    exact nofun
  rw [authorizePrincipalProject, if_neg hmode] at h
  exact workloadProject_of_authorized h

/-- What each phase may change. -/
theorem advances (server : QuotaServer) (projectId : String) (now : ℕ) (succeeds : Bool)
    (failures : List Bool) (phase : QuotaPhase) :
    Advances server projectId phase (server.advance now succeeds failures phase) := by
  cases phase with
  | authorizing principal name entropy =>
    rw [advance]
    split
    · exact advances_to rfl rfl
    · exact advances_end
  | admitting principal name entropy admitted => exact advances_admitProject admitted .write rfl rfl
  | counting principal name entropy counted =>
    exact advances_to rfl rfl
  | comparing principal name entropy checked current =>
    rw [advance]
    split
    · rename_i hpasses
      refine advances_quiet rfl rfl rfl rfl (fun _ later hlater hreserves => .inr ?_)
        fun _ later hlater => by cases hlater; rfl
      cases hlater
      exact decide_eq_true ⟨of_decide_eq_true hreserves, by rw [hpasses]; rfl⟩
    · exact advances_end
  | naming principal name entropy =>
    rw [advance]
    split
    · refine advances_onDataPlane _ fun scope later hlater => ?_
      cases hlater
      exact ⟨id, rfl⟩
    · exact advances_end
  | authorizingClaim principal name collectionId =>
    rw [advance]
    split
    · exact advances_to rfl rfl
    · rename_i hmode
      split
      · rename_i claimed hauthorized
        refine advances_quiet rfl rfl rfl rfl (fun hrequired later hlater hreserves => .inl ?_)
          fun hdevelopment => absurd hdevelopment hmode
        cases hlater
        have hclaimed : claimed = projectId := of_decide_eq_true hreserves
        rw [hclaimed] at hauthorized
        exact decide_eq_true (authorizePrincipalProject_required hrequired hauthorized)
      · exact advances_to rfl rfl
  | insertingClaim principal name collectionId claimed =>
    refine advances_onPolicies (insertClaim_ownsAtMost claimed name projectId)
      (fun hclaims => ?_) le_rfl (fun claim later hlater => ?_) fun later hlater => ?_
    · cases hclaims
    · cases hlater
      exact ⟨rfl, rfl⟩
    · cases hlater
      exact ⟨rfl, rfl⟩
  | storing principal name collectionId claim =>
    rw [advance]
    split
    · exact advances_quiet rfl rfl rfl rfl (fun _ _ hlater => nomatch hlater)
        fun _ _ hlater => nomatch hlater
    · exact advances_to rfl rfl
  | releasingClaim principal name collectionId claim =>
    rw [advance]
    split
    · exact advances_to rfl rfl
    · refine advances_onPolicies (release_ownsAtMost principal name projectId claim)
        (fun _ => le_rfl) (Nat.le_add_right _ _) (fun _ later hlater => ?_) fun later hlater => ?_
      · cases hlater
        exact ⟨rfl, rfl⟩
      · cases hlater
        exact ⟨rfl, rfl⟩
  | removingName principal name collectionId =>
    exact advances_onDataPlane _ fun _ _ hlater => nomatch hlater
  | authorizingDeletion principal name resolved =>
    rw [advance]
    split
    · exact advances_to rfl rfl
    · exact advances_end
    · exact advances_end
  | admittingDeletion principal name resolved admitted =>
    cases resolved with
    | none => exact advances_admitProject admitted .admin rfl rfl
    | some collectionId => exact advances_admitProject admitted .admin rfl rfl
  | resolving principal name authorized =>
    rw [advance]
    split
    · refine advances_onDataPlane _ fun scope later hlater => ?_
      cases hlater
      cases authorized with
      | false => exact ⟨nofun, rfl⟩
      | true => exact ⟨nofun, rfl⟩
    · exact advances_end
  | deletingStored principal name collectionId =>
    rw [advance]
    split
    · refine advances_quiet rfl rfl rfl rfl (fun _ later hlater hreserves => ?_)
        fun _ later hlater => by cases hlater; rfl
      cases hlater
      cases hreserves
    · exact advances_end
  | authorizingRemoval principal name collectionId =>
    rw [advance]
    split
    · exact advances_to rfl rfl
    · split
      · exact advances_to rfl rfl
      · exact advances_end
  | removingPolicies principal name collectionId =>
    refine advances_onPolicies (removePolicies_ownsAtMost principal name projectId)
      (fun _ => le_rfl) (Nat.le_add_right _ _) (fun _ later hlater => ?_) fun later hlater => ?_
    · cases hlater
      exact ⟨rfl, rfl⟩
    · cases hlater

/-! ### Runs -/

namespace Within

variable {n : ℕ}

/-- A request that starts has not passed a comparison. -/
theorem start (projectId : String) (request : QuotaRequest) :
    request.start.reserves projectId = false ∧ request.start.claims = false := by
  cases request with
  | createCollection principal name entropy => exact ⟨rfl, rfl⟩
  | deleteCollection transport principal name => cases transport <;> exact ⟨rfl, rfl⟩

theorem receive (h : Within projectId n server) (request : QuotaRequest) :
    Within projectId n (step server (.receive request)) := by
  refine ⟨h.limit_eq, h.owned_le, fun hrequired => ?_, fun hdevelopment phase hphase => ?_⟩
  · have hreserved : (server.requests ++ [request.start]).countP (·.reserves projectId) =
        server.reserved projectId := by
      rw [List.countP_append, List.countP_singleton, (start projectId request).1]
      rfl
    show server.owned projectId + List.countP _ (server.requests ++ [request.start]) ≤ n
    rw [hreserved]
    exact h.room hrequired
  · rcases List.mem_append.mp hphase with hold | hnew
    · exact h.development hdevelopment phase hold
    · rw [List.mem_singleton.mp hnew]
      exact (start projectId request).2

/-- The requests after one of them went on. -/
theorem reserved_proceed (projectId : String) {index : ℕ}
    {outcome : QuotaServer × Option QuotaPhase}
    (hphase : outcome.1.requests[index]? = some phase) :
    (proceed index outcome).reserved projectId + (phase.reserves projectId).toNat =
      outcome.1.reserved projectId + (outcome.2.any (·.reserves projectId)).toNat := by
  obtain ⟨after, none | next⟩ := outcome
  · exact countP_eraseIdx _ hphase
  · exact countP_set _ hphase

theorem mem_proceed {index : ℕ} {outcome : QuotaServer × Option QuotaPhase} {later : QuotaPhase}
    (h : later ∈ (proceed index outcome).requests) :
    later ∈ outcome.1.requests ∨ later ∈ outcome.2 := by
  obtain ⟨after, none | next⟩ := outcome
  · exact .inl (List.mem_of_mem_eraseIdx h)
  · rcases List.mem_or_eq_of_mem_set h with hold | rfl
    · exact .inl hold
    · exact .inr rfl

/-- Nothing but the requests changes when an outcome is noted. -/
theorem proceed_eq (index : ℕ) (outcome : QuotaServer × Option QuotaPhase) :
    ∃ requests, proceed index outcome = { outcome.1 with requests } := by
  obtain ⟨after, none | next⟩ := outcome
  · exact ⟨_, rfl⟩
  · exact ⟨_, rfl⟩

theorem proceed (h : Within projectId n server) {index : ℕ}
    {outcome : QuotaServer × Option QuotaPhase} (hphase : server.requests[index]? = some phase)
    (hadvances : Advances server projectId phase outcome)
    (hroom : server.mode = .required → server.passes projectId phase →
      server.owned projectId + server.reserved projectId < n) :
    Within projectId n (QuotaServer.proceed index outcome) := by
  rw [← hadvances.requests] at hphase
  have hreserved := reserved_proceed projectId hphase
  have hbefore : outcome.1.reserved projectId = server.reserved projectId := by
    rw [reserved, hadvances.requests]
    rfl
  have hmem : ∀ later ∈ (QuotaServer.proceed index outcome).requests,
      later ∈ outcome.1.requests ∨ later ∈ outcome.2 := fun _ hlater => mem_proceed hlater
  obtain ⟨requests, hproceed⟩ := proceed_eq index outcome
  rw [hproceed] at hreserved hmem ⊢
  have hwithin : server.mode = .required →
      outcome.1.owned projectId + reserved { outcome.1 with requests } projectId ≤ n := by
    intro hrequired
    have hgrows := hadvances.room hrequired
    have hbound := h.room hrequired
    cases hpasses : server.passes projectId phase with
    | false =>
      rw [hpasses, Bool.toNat_false] at hgrows
      omega
    | true =>
      have hspare := hroom hrequired hpasses
      rw [hpasses, Bool.toNat_true] at hgrows
      omega
  have hdevelopment : server.mode = .development →
      ∀ later ∈ requests, later.claims = false := by
    intro hdevelopment later hlater
    rcases hmem later hlater with hold | hnext
    · rw [hadvances.requests] at hold
      exact h.development hdevelopment later hold
    · exact hadvances.development hdevelopment later hnext
  refine ⟨hadvances.limit.trans h.limit_eq, ?_, fun hmode => hwithin (hadvances.mode.symm.trans hmode),
    fun hmode => hdevelopment (hadvances.mode.symm.trans hmode)⟩
  cases hmode : server.mode with
  | required => exact (Nat.le_add_right _ _).trans (hwithin hmode)
  | development =>
    rw [hadvances.requests] at hphase
    have hclaims := h.development hmode phase (List.mem_of_getElem? hphase)
    exact (hadvances.owned_le hclaims).trans h.owned_le

theorem step (h : Within projectId n server) {event : QuotaEvent}
    (hallowed : LeavesRoom projectId server event) :
    Within projectId n (QuotaServer.step server event) := by
  cases event with
  | receive request => exact h.receive request
  | administer files => exact ⟨h.limit_eq, h.owned_le, h.room, h.development⟩
  | advance index now succeeds failures =>
    rw [QuotaServer.step]
    split
    · rename_i phase hphase
      exact h.proceed hphase (advances server projectId now succeeds failures phase)
        fun hrequired hpasses => hallowed hrequired n h.limit_eq phase hphase hpasses
    · exact h

end Within

/-- A project with a quota never owns more collections than that, as long as the steps are
among those that are allowed. -/
def KeepsQuota (allowed : String → QuotaServer → QuotaEvent → Prop) : Prop :=
  ∀ (server after : QuotaServer) (projectId : String) (n : ℕ),
    server.limit projectId = some n → server.owned projectId ≤ n → server.requests = [] →
      Reaches step (allowed projectId) server after → after.owned projectId ≤ n

theorem keepsQuota {after : QuotaServer} {n : ℕ} (hlimit : server.limit projectId = some n)
    (howned : server.owned projectId ≤ n) (hidle : server.requests = [])
    (hrun : Reaches step (LeavesRoom projectId) server after) : after.owned projectId ≤ n := by
  have hreserved : server.reserved projectId = 0 := by
    rw [reserved, hidle]
    rfl
  have hwithin : Within projectId n server := by
    refine ⟨hlimit, howned, fun _ => ?_, fun _ phase hphase => ?_⟩
    · rw [hreserved]
      exact howned
    · rw [hidle] at hphase
      cases hphase
  exact (hrun.invariant (Within projectId n) hwithin fun _ _ h hallowed => h.step hallowed).owned_le

/-- The comparison leaves room where the count is still right and no other creation is on
the way. -/
theorem lt_of_passes {n : ℕ} {principal : Principal} {name : String}
    {entropy : Option (List UInt8)} (hlimit : server.limit projectId = some n)
    (hbound : n < 2 ^ 64 - 1) (hreserved : server.reserved projectId = 0)
    (hpasses : server.passes projectId
      (.comparing principal name entropy projectId (server.owned projectId))) :
    server.owned projectId + server.reserved projectId < n := by
  have hchecked := (of_decide_eq_true hpasses).2
  have hlimit : server.governance.policies[projectId]?.bind (·.quota.maxCollections) = some n := hlimit
  unfold AdmissionService.checkCollectionQuota at hchecked
  rw [hlimit] at hchecked
  dsimp only at hchecked
  split at hchecked
  · cases hchecked
  · rename_i hle
    omega

instance (server : QuotaServer) (projectId : String) (event : QuotaEvent) :
    Decidable (LeavesRoom projectId server event) := by
  unfold LeavesRoom
  cases event <;> infer_instance

/-! ### Two creations beside each other -/

section Sample

open ProjectServer (workerA)

/-- The project may own one collection and owns none. -/
def quotaOne : QuotaServer where
  mode := .required
  files := World.sampleFiles World.activeProjects World.sampleMembers .default
  policies := ⟨.default, none⟩
  dataPlane := ⟨⟨.default, none⟩, ∅⟩
  governance :=
    { policies := (∅ : Std.ExtTreeMap String GovernancePolicy compare).insert "project-a"
        ⟨none, none, none, ⟨some 1, none⟩⟩
      windows := fun _ => none
      allowed := fun _ => 0
      denied := fun _ => 0 }
  requests := []

def createNamed (name : String) (entropy : UInt8) : QuotaRequest :=
  .createCollection workerA name (some (List.replicate 16 entropy))

/-- The next phases of a request. -/
def goesOn (index count : ℕ) : List QuotaEvent := List.replicate count (.advance index 0 true [])

/-- One creation after the other. -/
def inTurn : List QuotaEvent :=
  .receive (createNamed "docs" 1) :: goesOn 0 8 ++ .receive (createNamed "notes" 2) :: goesOn 0 8

theorem keepsQuota_inTurn : (inTurn.foldl step quotaOne).owned "project-a" ≤ 1 :=
  have hlimit : quotaOne.limit "project-a" = some 1 := by decide +kernel
  keepsQuota hlimit (by decide +kernel) rfl (Reaches.of_allowed (by decide +kernel))

example : (inTurn.foldl step quotaOne).owned "project-a" = 1 := by decide +kernel

/-- Both creations are counted before either has claimed its name. -/
def besideEachOther : List QuotaEvent :=
  .receive (createNamed "docs" 1) :: .receive (createNamed "notes" 2) :: goesOn 0 4 ++ goesOn 1 4 ++
    goesOn 0 4 ++ goesOn 0 4

theorem not_keepsQuota : ¬KeepsQuota fun _ _ _ => True := by
  intro h
  have howned : (besideEachOther.foldl step quotaOne).owned "project-a" = 2 := by decide +kernel
  have hkept := h quotaOne (besideEachOther.foldl step quotaOne) "project-a" 1 (by decide +kernel)
    (by decide +kernel) rfl (Reaches.foldl besideEachOther quotaOne)
  omega

end Sample

end QuotaServer

end Ketebe.ControlPlane
