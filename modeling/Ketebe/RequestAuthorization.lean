import Ketebe.DataPlaneRequest
import Ketebe.Governance
import Ketebe.SecurityStores

/-!
Authorization of requests. The HTTP middleware finds the action of a request in its
method and path, each gRPC handler names its action. Both charge the project's budget
for the class of the action. They decide alike except for the deletion of a record.
-/
namespace Ketebe

open Lib.ByteCodec

/-! ### Admission -/

inductive AdmissionClass where
  | read
  | write
  | admin
  deriving DecidableEq, Repr

def GovernancePolicy.limit (policy : GovernancePolicy) : AdmissionClass → Option RateLimit
  | .read => policy.read
  | .write => policy.write
  | .admin => policy.admin

structure AdmissionDecision where
  remaining : Option ℕ
  resetAfter : Option ℕ
  deriving DecidableEq, Repr

structure WindowState where
  startedAt : ℕ
  used : ℕ
  deriving DecidableEq, Repr

/-- The policies in force with the open windows and the counted decisions. -/
structure AdmissionService extends GovernanceService where
  windows : String × AdmissionClass → Option WindowState
  allowed : AdmissionClass → ℕ
  denied : AdmissionClass → ℕ

namespace AdmissionService

variable (service : AdmissionService) (projectId : String) (admission : AdmissionClass) (now : ℕ)

def recordMetric (allowed : Bool) : AdmissionService :=
  if allowed then
    { service with allowed := Function.update service.allowed admission (service.allowed admission + 1) }
  else
    { service with denied := Function.update service.denied admission (service.denied admission + 1) }

def setWindow (window : WindowState) : AdmissionService :=
  { service with windows := Function.update service.windows (projectId, admission) (some window) }

/-- The window that a request falls into; a new one starts when the last one is over. -/
def window (limit : RateLimit) : WindowState :=
  let window := (service.windows (projectId, admission)).getD ⟨now, 0⟩
  if limit.window ≤ now - window.startedAt then ⟨now, 0⟩ else window

/-- `admit_at` of the source. -/
def admitAt : Except GovernanceError AdmissionDecision × AdmissionService :=
  match service.policies[projectId]?.bind (·.limit admission) with
  | none => (.ok ⟨none, none⟩, service.recordMetric admission true)
  | some limit =>
      let window := service.window projectId admission now limit
      let resetAfter := limit.window - (now - window.startedAt)
      if limit.requests ≤ window.used then
        (.error (.rateLimited resetAfter),
          (service.setWindow projectId admission window).recordMetric admission false)
      else
        (.ok ⟨some (limit.requests - (window.used + 1)), some resetAfter⟩,
          (service.setWindow projectId admission { window with used := window.used + 1 }).recordMetric
            admission true)

def checkCollectionQuota (currentCollections additional : ℕ) : Except GovernanceError Unit :=
  match service.policies[projectId]?.bind (·.quota.maxCollections) with
  | none => .ok ()
  | some limit =>
      if limit < min (currentCollections + additional) (2 ^ 64 - 1) then
        .error (.collectionQuotaExceeded limit)
      else .ok ()

end AdmissionService

namespace ControlPlane

open Lib.Durable

/-! ### Requests -/

inductive AuthorizationMode where
  | development
  | required
  deriving DecidableEq, Repr

/-- What a server decides with. -/
structure Server where
  mode : AuthorizationMode
  files : Files
  policies : PolicyFile
  dataPlane : DataPlane
  faults : List Fault
  draining : Bool
  now : ℕ

inductive Refusal where
  | forbidden
  | undiscoverable
  | governance (error : GovernanceError)
  | draining
  | dataPlane (error : DataPlaneRequestError)
  | crashed
  deriving DecidableEq

/-- An action that was evaluated for a project or a collection, and a class that was
charged to a project. -/
inductive Check where
  | evaluated (action : AuthorizationAction) (projectId collectionId : Option String)
  | charged (projectId : String) (admission : AdmissionClass)
  deriving DecidableEq

structure RequestState where
  governance : AdmissionService
  checks : List Check

abbrev Handling := ExceptT Refusal (StateM RequestState)

def refuseUnless {ε α : Type} (refusal : Refusal) : Except ε α → Handling α
  | .ok value => pure value
  | .error _ => throw refusal

def record (check : Check) : Handling Unit :=
  modify fun state => { state with checks := state.checks ++ [check] }

namespace Server

variable (server : Server) (principal : Principal) (action : AuthorizationAction)

def authorizePrincipalProject (refusal : Refusal) : Handling String := do
  record (.evaluated action principal.workloadProjectId none)
  refuseUnless refusal (if server.mode = .development then .ok "development"
    else ask server.files (ControlPlane.authorizePrincipalProject principal action))

def authorizeProject (projectId : String) : Except AuthorizationError Unit :=
  if server.mode = .development then .ok ()
  else ask server.files (authorizeProjectNamed principal action projectId)

def authorizeCollection (collectionId : String) (refusal : Refusal) :
    Handling AuthorizationResource := do
  record (.evaluated action principal.workloadProjectId (some collectionId))
  refuseUnless refusal (if server.mode = .development then
      .ok (.collection "development" collectionId)
    else AuthorizationService.authorizeCollection server.files server.policies principal action
      collectionId)

def projectCollectionCount (projectId : String) : ℕ :=
  if server.mode = .development then 0
  else AuthorizationService.projectCollectionCount server.policies projectId

def admitAt (projectId : String) (admission : AdmissionClass) : Handling Unit := do
  record (.charged projectId admission)
  let state ← get
  let (decision, governance) := state.governance.admitAt projectId admission server.now
  modify fun state => { state with governance }
  match decision with
  | .ok _ => pure ()
  | .error error => throw (.governance error)

def checkCollectionQuota (projectId : String) : Handling Unit := do
  let state ← get
  match state.governance.checkCollectionQuota projectId (server.projectCollectionCount projectId) 1 with
  | .ok () => pure ()
  | .error error => throw (.governance error)

def admitForegroundWrite : Except Refusal Unit :=
  if server.draining then .error .draining else .ok ()

def resolveExistingScope (collectionName : String) : Except Refusal Unit :=
  match ((DataPlane.resolveExistingScope principal collectionName).run server.dataPlane
      server.faults).1 with
  | .ok _ => .ok ()
  | .error error => .error (.dataPlane error)
  | .crashed => .error .crashed

end Server

/-! ### HTTP -/

inductive Method where
  | get
  | post
  | put
  | delete
  | other
  deriving DecidableEq, Repr

/-- The action of a request for a collection. -/
def Method.action : Method → AuthorizationAction
  | .get => .collectionRead
  | .delete => .collectionDelete
  | _ => .collectionWrite

/-- What a request is charged that is for no collection. -/
def Method.admission : Method → AdmissionClass
  | .get => .read
  | .delete => .admin
  | _ => .write

/-- A request with the value of its project header. -/
structure HttpRequest where
  method : Method
  path : String
  project : Option String

section Http

variable (server : Server)

end Http

/-! ### Operations -/

/-- What clients ask for over HTTP; all but the fetching of records also over gRPC. -/
inductive Operation where
  | createCollection
  | listCollections
  | getCollection (name : CollectionName)
  | deleteCollection (name : CollectionName)
  | updateLexicalSchema (name : CollectionName)
  | upsert (name : CollectionName) (record : String)
  | batchUpsert (name : CollectionName)
  | deleteRecord (name : CollectionName) (record : String)
  | fetch (name : CollectionName)
  | query (name : CollectionName)

namespace Operation

def name : Operation → Option CollectionName
  | createCollection | listCollections => none
  | getCollection name | deleteCollection name | updateLexicalSchema name | upsert name _
  | batchUpsert name | deleteRecord name _ | fetch name | query name => some name

def collectionPath (name : CollectionName) (rest : String) : String :=
  "/v0/collections/" ++ name.asStr ++ rest

/-- The routes of the HTTP server. -/
def request (operation : Operation) (project : Option String) : HttpRequest :=
  match operation with
  | createCollection => ⟨.post, "/v0/collections", project⟩
  | listCollections => ⟨.get, "/v0/collections", project⟩
  | getCollection name => ⟨.get, collectionPath name "", project⟩
  | deleteCollection name => ⟨.delete, collectionPath name "", project⟩
  | updateLexicalSchema name => ⟨.put, collectionPath name "/lexical-schema", project⟩
  | upsert name record => ⟨.put, collectionPath name ("/records/" ++ record), project⟩
  | batchUpsert name => ⟨.post, collectionPath name "/records:batchUpsert", project⟩
  | deleteRecord name record => ⟨.delete, collectionPath name ("/records/" ++ record), project⟩
  | fetch name => ⟨.post, collectionPath name "/records:fetch", project⟩
  | query name => ⟨.post, collectionPath name "/query", project⟩

end Operation

section Transports

variable (server : Server)

/-- What a handler checks besides the authorization before it starts to work. -/
def prepare (principal : Principal) : Operation → Except Refusal Unit
  | .listCollections => .ok ()
  | .createCollection => server.admitForegroundWrite
  | .getCollection name | .fetch name | .query name =>
      server.resolveExistingScope principal name.asStr
  | .deleteCollection name | .updateLexicalSchema name | .upsert name _ | .batchUpsert name
  | .deleteRecord name _ => do
      server.admitForegroundWrite
      server.resolveExistingScope principal name.asStr

end Transports

/-- Two handlings evaluate and charge the same, and both allow the request or neither. -/
structure HandlesAlike (first second : Handling Unit) (state : RequestState) : Prop where
  checks : (first.run.run state).2.checks = (second.run.run state).2.checks
  governance : (first.run.run state).2.governance = (second.run.run state).2.governance
  allowed : (first.run.run state).1.isOk = (second.run.run state).1.isOk

/-! ### Paths of collections -/

section Paths

variable {name : CollectionName} {rest : String} {operation : Operation}

/-- What follows the name in a route is empty or another part. -/
def Continues (rest : String) : Prop := rest = "" ∨ ∃ characters, rest.toList = '/' :: characters

end Paths

/-! ### The middleware by operation -/

section Middleware

variable {server : Server} {authorizeJobs : Principal → HttpRequest → Handling Unit}
  {principal selected : Principal} {project : Option String} {name : CollectionName}
  {method : Method} {path : String}

end Middleware

/-! ### Checks are only added -/

section Checks

variable {α β : Type} {server : Server} {state : RequestState}

theorem run_bind (program : Handling α) (next : α → Handling β) (state : RequestState) :
    (program >>= next).run.run state = match program.run.run state with
      | (.ok value, after) => (next value).run.run after
      | (.error error, after) => (.error error, after) := by
  simp only [bind, ExceptT.bind, ExceptT.mk, StateT.bind, ExceptT.bindCont, ExceptT.run, StateT.run]
  rcases program state with ⟨_ | _, _⟩ <;> rfl

/-- The checks that were made before stay in front of those of the program. -/
def Appends (program : Handling α) : Prop :=
  ∀ state : RequestState, state.checks <+: (program.run.run state).2.checks

theorem Appends.bind {program : Handling α} {next : α → Handling β} (h : Appends program)
    (hnext : ∀ value, Appends (next value)) : Appends (program >>= next) := by
  intro state
  have hfirst := h state
  rw [run_bind]
  generalize program.run.run state = ending at hfirst ⊢
  obtain ⟨error | value, after⟩ := ending
  · exact hfirst
  · exact hfirst.trans (hnext value after)

end Checks

/-! ### The transports compared -/

section Transports

variable {server : Server} {authorizeJobs : Principal → HttpRequest → Handling Unit}
  {principal selected : Principal} {project : Option String} {name : CollectionName}
  {operation : Operation} {state : RequestState} {handler first second : Handling Unit}

theorem HandlesAlike.refl (handling : Handling Unit) : HandlesAlike handling handling state :=
  ⟨rfl, rfl, rfl⟩

end Transports

/-! ### A workload that may write to one collection -/

/-- It has the same subject as the member whose permission is stored. -/
def writer : Principal := ⟨"reader", .workloadCredential, some "default", some .editor⟩

end ControlPlane

end Ketebe
