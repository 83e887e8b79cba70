import Ketebe.Collection
import Ketebe.KafkaIngestion
import Ketebe.Lib.Runs

/-!
The one stream that a server ingests, and the tasks spawned for it. All tasks share the
cell with the state that is shown; aborting a task takes effect at its next await point.
-/
namespace Ketebe.Kafka

open Lib.Runs Lib.ByteCodec

/-! ### Streams -/

inductive StreamState where
  | running
  | paused
  | failed
  deriving DecidableEq, Repr

structure ManagedState where
  state : StreamState
  failureCode : Option String
  deriving DecidableEq, Repr

structure KafkaSecurityConfig where
  securityProtocol : String
  saslMechanism : Option String
  saslUsername : Option String
  saslPassword : Option String

/-- The whole configuration of a stream. -/
structure StreamConfig extends KafkaIngestionConfig where
  brokers : String
  groupId : String
  batchLingerMs : UInt64
  security : Option KafkaSecurityConfig

/-- The handle of a task is its place among the tasks spawned. -/
structure ManagedStream where
  id : String
  collection : String
  config : StreamConfig
  state : ManagedState
  task : Option ℕ

inductive TaskPhase where
  | awaiting
  | processing
  /-- It has returned an error, past its last await point, and has yet to record it. -/
  | failing (error : KafkaIngestionError)
  | finished
  deriving DecidableEq, Repr

structure Task where
  phase : TaskPhase
  aborted : Bool
  deriving DecidableEq, Repr

/-- The task runs no more: it has finished, or was aborted at an await point. -/
def Task.ended (task : Task) : Bool :=
  task.phase = .finished ∨ task.phase = .awaiting ∧ task.aborted

/-- A stream is never taken away again, so that all tasks belong to the first one. -/
structure Server where
  stream : Option ManagedStream
  tasks : List Task

/-! ### Requests -/

structure StreamFailure where
  status : ℕ
  code : String
  message : String
  deriving DecidableEq, Repr

namespace StreamFailure

def badRequest (code message : String) : StreamFailure := ⟨400, code, message⟩

def conflict (code message : String) : StreamFailure := ⟨409, code, message⟩

def notFound : StreamFailure :=
  ⟨404, "stream_ingestion_not_found", "stream ingestion was not found"⟩

def configError (error : KafkaIngestionError) : StreamFailure :=
  badRequest "invalid_stream_ingestion" error.display

end StreamFailure

structure CreateStreamRequest where
  brokers : String
  topic : String
  groupId : String
  batchMaxRecords : ℕ
  batchLingerMs : UInt64
  dlqTopic : Option String
  securityProtocol : Option String
  saslMechanism : Option String
  saslUsernameRef : Option String
  saslPasswordRef : Option String

structure StreamView where
  id : String
  collection : String
  topic : String
  groupId : String
  state : StreamState
  consumerLagRecords : Option UInt64
  failureCode : Option String

/-- The lag is that of the consumer's metrics. -/
def streamView (lag : Option UInt64) (stream : ManagedStream) : StreamView where
  id := stream.id
  collection := stream.collection
  topic := stream.config.topic
  groupId := stream.config.groupId
  state := stream.state.state
  consumerLagRecords := lag
  failureCode := stream.state.failureCode

def StreamConfig.new (brokers topic groupId : String) (collectionId : CollectionId)
    (batchMaxRecords : ℕ) (batchLingerMs : UInt64) : Except KafkaIngestionError StreamConfig :=
  if trim brokers = "" then .error (.invalidConfig "brokers must not be empty")
  else if trim topic = "" then .error (.invalidConfig "topic must not be empty")
  else if trim groupId = "" then .error (.invalidConfig "group_id must not be empty")
  else if batchMaxRecords = 0 then
    .error (.invalidConfig "batch_max_records must be greater than zero")
  else .ok {
    brokers, topic, groupId, collectionId, batchMaxRecords, batchLingerMs
    poisonPolicy := .block
    security := none }

/-- `SecretRef::new` -/
def isSecretRef (value : String) : Bool :=
  let trimmed := (trim value).toList
  "env://".toList.isPrefixOf trimmed || "file://".toList.isPrefixOf trimmed

def resolveOptionalSecret (resolve : String → Option String) (reference : Option String) :
    Except StreamFailure (Option String) :=
  match reference with
  | none => .ok none
  | some reference =>
      if isSecretRef reference then
        match resolve reference with
        | some secret => .ok (some secret)
        | none => .error (.badRequest "secret_resolution_failed" "secret could not be resolved")
      else .error (.badRequest "invalid_secret_ref" "invalid secret reference")

def withDlqTopic (config : StreamConfig) : Option String → Except StreamFailure StreamConfig
  | none => .ok config
  | some topic =>
      if trim topic = "" then
        .error (.badRequest "invalid_dlq_topic" "dlq_topic must not be empty")
      else .ok { config with poisonPolicy := .dlq topic }

def createConfig (resolve : String → Option String) (collectionId : CollectionId)
    (request : CreateStreamRequest) : Except StreamFailure StreamConfig := do
  let config ← (StreamConfig.new request.brokers request.topic request.groupId collectionId
    request.batchMaxRecords request.batchLingerMs).mapError .configError
  let config ← withDlqTopic config request.dlqTopic
  if request.securityProtocol.isSome || request.saslMechanism.isSome ||
      request.saslUsernameRef.isSome || request.saslPasswordRef.isSome then
    let saslUsername ← resolveOptionalSecret resolve request.saslUsernameRef
    let saslPassword ← resolveOptionalSecret resolve request.saslPasswordRef
    pure { config with
      security := some {
        securityProtocol := request.securityProtocol.getD "SASL_SSL"
        saslMechanism := request.saslMechanism
        saslUsername
        saslPassword } }
  else pure config

def stableFailureCode : KafkaIngestionError → String
  | .invalidConfig _ => "invalid_config"
  | .kafka _ => "kafka_error"
  | .dlq _ => "dlq_error"
  | .decode _ | .invalidEnvelope _ | .missingPayload | .unsupportedEnvelopeVersion _
  | .emptyBatch | .mixedPartitions | .nonMonotonicOffsets => "source_record_error"
  | .apply _ => "ingestion_apply_error"

namespace Server

def start : Server := ⟨none, []⟩

/-- The tasks after one more was spawned. -/
def spawn (s : Server) : List Task := s.tasks ++ [⟨.awaiting, false⟩]

def abort (s : Server) (task : Option ℕ) : List Task :=
  match task with
  | some task => s.tasks.modify task fun task => { task with aborted := true }
  | none => s.tasks

def matching (s : Server) (collectionId : CollectionId) (streamId : String) :
    Except StreamFailure ManagedStream :=
  match s.stream with
  | some stream =>
      if stream.id = streamId ∧ stream.config.collectionId = collectionId then .ok stream
      else .error .notFound
  | none => .error .notFound

/-- The state that is shown of the stream. -/
def shown (s : Server) : Option StreamState := s.stream.map (·.state.state)

def getStream (s : Server) (lag : Option UInt64) (collectionId : CollectionId)
    (streamId : String) : Except StreamFailure StreamView :=
  (s.matching collectionId streamId).map (streamView lag)

/-- The collection is known, as `found` says. -/
def createStream (s : Server) (resolve : String → Option String) (collection : String)
    (collectionId : CollectionId) (found : Bool) (request : CreateStreamRequest) :
    Except StreamFailure Server :=
  if !found then .error .notFound
  else if s.stream.isSome then
    .error (.conflict "stream_ingestion_conflict"
      "stream ingestion v0 supports one managed ingestion at a time")
  else do
    let config ← createConfig resolve collectionId request
    pure {
      stream := some {
        id := "stream-" ++ collection
        collection
        config
        state := ⟨.running, none⟩
        task := some s.tasks.length }
      tasks := s.spawn }

def pauseStream (s : Server) (collectionId : CollectionId) (streamId : String) :
    Except StreamFailure Server := do
  let stream ← s.matching collectionId streamId
  if stream.state.state ≠ .running then
    .error (.conflict "stream_not_running" "stream ingestion is not running")
  else
    pure {
      stream := some { stream with state := ⟨.paused, none⟩, task := none }
      tasks := s.abort stream.task }

def resumeStream (s : Server) (collectionId : CollectionId) (streamId : String) :
    Except StreamFailure Server := do
  let stream ← s.matching collectionId streamId
  if stream.state.state ≠ .paused ∧ stream.state.state ≠ .failed then
    .error (.conflict "stream_not_paused" "stream ingestion is not paused or failed")
  else
    pure {
      stream := some { stream with state := ⟨.running, none⟩, task := some s.tasks.length }
      tasks := s.spawn }

/-- What requests and tasks do. -/
inductive Event where
  | create (resolve : String → Option String) (collection : String) (collectionId : CollectionId)
      (found : Bool) (request : CreateStreamRequest)
  | pause (collectionId : CollectionId) (streamId : String)
  | resume (collectionId : CollectionId) (streamId : String)
  | run (task : ℕ)
  | await (task : ℕ)
  | cancel (task : ℕ)
  | returnOk (task : ℕ)
  | returnErr (task : ℕ) (error : KafkaIngestionError)
  | record (task : ℕ)

/-- A failed request changes nothing. -/
def respond (s : Server) : Except StreamFailure Server → Server
  | .ok next => next
  | .error _ => s

def setPhase (s : Server) (task : ℕ) (phase : TaskPhase) : Server :=
  { s with tasks := s.tasks.modify task fun task => { task with phase } }

/-- One request, or one step of a task. -/
def step (s : Server) : Event → Server
  | .create resolve collection collectionId found request =>
      s.respond (s.createStream resolve collection collectionId found request)
  | .pause collectionId streamId => s.respond (s.pauseStream collectionId streamId)
  | .resume collectionId streamId => s.respond (s.resumeStream collectionId streamId)
  | .run task =>
      match s.tasks[task]? with
      | some ⟨.awaiting, false⟩ => s.setPhase task .processing
      | _ => s
  | .await task =>
      match s.tasks[task]? with
      | some ⟨.processing, _⟩ => s.setPhase task .awaiting
      | _ => s
  | .cancel task =>
      match s.tasks[task]? with
      | some ⟨.awaiting, true⟩ => s.setPhase task .finished
      | _ => s
  | .returnOk task =>
      match s.tasks[task]? with
      | some ⟨.processing, _⟩ => s.setPhase task .finished
      | _ => s
  | .returnErr task error =>
      match s.tasks[task]? with
      | some ⟨.processing, _⟩ => s.setPhase task (.failing error)
      | _ => s
  | .record task =>
      match s.tasks[task]? with
      | some ⟨.failing error, _⟩ => { s.setPhase task .finished with
          stream := s.stream.map fun stream =>
            { stream with state := ⟨.failed, some (stableFailureCode error)⟩ } }
      | _ => s

/-- The task whose step it is. -/
def Event.taskOf : Event → Option ℕ
  | .run task | .await task | .cancel task | .returnOk task | .returnErr task _ | .record task =>
      some task
  | _ => none

/-! ### One consumer -/

/-- At most one task processes messages, a task that may go on exists exactly while the stream is
shown running, and a finished or aborted task does not change the state of a later one. -/
structure SingleConsumer (s : Server) : Prop where
  one (first second : ℕ) (task other : Task) : s.tasks[first]? = some task →
    s.tasks[second]? = some other → task.phase = .processing → other.phase = .processing →
      first = second
  running : s.shown = some .running ↔
    ∃ (place : ℕ) (task : Task), s.tasks[place]? = some task ∧ task.ended = false
  own (event : Event) (place : ℕ) (task : Task) : event.taskOf = some place →
    s.tasks[place]? = some task → task.phase = .finished ∨ task.aborted →
      place + 1 < s.tasks.length → (s.step event).stream = s.stream

/-- A pause that takes effect meets its task at an await point, and no task returns `Ok`. -/
def Careful (s : Server) : Event → Prop
  | .pause collectionId streamId => ∀ stream, s.matching collectionId streamId = .ok stream →
      stream.state.state = .running → ∀ place ∈ stream.task, ∀ task ∈ s.tasks[place]?,
        task.phase = .awaiting
  | .returnOk place => ∀ task ∈ s.tasks[place]?, task.phase ≠ .processing
  | _ => True

/-- The last task goes on while the stream is running; all others have ended. -/
structure Manages (s : Server) (stream : ManagedStream) (last : ℕ) (task : Task) : Prop where
  length : s.tasks.length = last + 1
  found : s.tasks[last]? = some task
  running : stream.state.state = .running →
    stream.task = some last ∧ task.ended = false ∧ task.aborted = false
  stopped : stream.state.state ≠ .running → task.ended
  earlier (place : ℕ) (other : Task) : s.tasks[place]? = some other → place ≠ last → other.ended

def Inv (s : Server) : Prop :=
  match s.stream with
  | none => s.tasks = []
  | some stream => ∃ last task, Manages s stream last task

theorem inv_start : Inv start := rfl

section Inv

variable {s : Server} {stream : ManagedStream} {place last : ℕ} {task : Task}

theorem Manages.inv (h : Manages s stream last task) (hstream : s.stream = some stream) : Inv s := by
  rw [Inv, hstream]
  exact ⟨last, task, h⟩

theorem Inv.manages (h : Inv s) (hstream : s.stream = some stream) :
    ∃ last task, Manages s stream last task := by
  rw [Inv, hstream] at h
  exact h

/-- A task that may go on is the last one, of a running stream. -/
theorem Inv.live (h : Inv s) (htask : s.tasks[place]? = some task) (hlive : task.ended = false) :
    ∃ stream, s.stream = some stream ∧ stream.state.state = .running ∧
      Manages s stream place task := by
  cases hstream : s.stream with
  | none =>
    rw [Inv, hstream] at h
    rw [h] at htask
    cases htask
  | some stream =>
    obtain ⟨last, found, hmanages⟩ := h.manages hstream
    by_cases hlast : place = last
    · subst hlast
      obtain rfl := Option.some.inj (htask.symm.trans hmanages.found)
      refine ⟨stream, rfl, ?_, hmanages⟩
      by_contra hstopped
      rw [hmanages.stopped hstopped] at hlive
      cases hlive
    · rw [hmanages.earlier place task htask hlast] at hlive
      cases hlive

theorem live_of_processing (h : task.phase = .processing) : task.ended = false := by
  simp [Task.ended, h]

theorem Inv.singleConsumer (h : Inv s) : SingleConsumer s where
  one first second task other htask hother hprocessing hprocessing' := by
    obtain ⟨stream, -, -, hmanages⟩ := h.live htask (live_of_processing hprocessing)
    obtain ⟨stream', -, -, hmanages'⟩ := h.live hother (live_of_processing hprocessing')
    have hlength := hmanages.length
    have hlength' := hmanages'.length
    omega
  running := by
    constructor
    · intro hrunning
      obtain ⟨stream, hstream, hstate⟩ := Option.map_eq_some_iff.mp hrunning
      obtain ⟨last, task, hmanages⟩ := h.manages hstream
      exact ⟨last, task, hmanages.found, (hmanages.running hstate).2.1⟩
    · intro ⟨place, task, htask, hlive⟩
      obtain ⟨stream, hstream, hstate, -⟩ := h.live htask hlive
      rw [shown, hstream, Option.map_some, hstate]
  own event place task htaskOf htask _ hlater := by
    cases event with
    | record place =>
      cases htaskOf
      simp only [step, htask]
      split
      · rename_i error aborted hfailing
        -- a task with an error still to record is the last one
        obtain ⟨stream, -, -, hmanages⟩ := h.live (htask.trans hfailing) rfl
        have hlength := hmanages.length
        omega
      · rfl
    | create | pause | resume => cases htaskOf
    | _ =>
      simp only [step]
      split <;> rfl

/-- One change of the last task, that fits the new state of the stream. -/
theorem Manages.modify {t : Server} {next : ManagedStream} {f : Task → Task}
    (h : Manages s stream last task) (htasks : t.tasks = s.tasks.modify last f)
    (hrunning : next.state.state = .running →
      next.task = some last ∧ (f task).ended = false ∧ (f task).aborted = false)
    (hstopped : next.state.state ≠ .running → (f task).ended) :
    Manages t next last (f task) where
  length := by rw [htasks, List.length_modify, h.length]
  found := by rw [htasks, List.getElem?_modify_eq, h.found]; rfl
  running := hrunning
  stopped := hstopped
  earlier place other hother hplace := by
    rw [htasks, List.getElem?_modify_ne _ _ (Ne.symm hplace)] at hother
    exact h.earlier place other hother hplace

/-- A new task beside tasks that have all ended. -/
theorem manages_spawn {t : Server} {next : ManagedStream} (htasks : t.tasks = s.spawn)
    (hended : ∀ task ∈ s.tasks, task.ended) (hstate : next.state.state = .running)
    (htask : next.task = some s.tasks.length) :
    Manages t next s.tasks.length ⟨.awaiting, false⟩ where
  length := by rw [htasks, spawn, List.length_append]; rfl
  found := by rw [htasks, spawn, List.getElem?_concat_length]
  running _ := ⟨htask, rfl, rfl⟩
  stopped hstopped := absurd hstate hstopped
  earlier place other hother hplace := by
    have hlength : place < s.tasks.length + 1 := by
      have := (List.getElem?_eq_some_iff.mp hother).1
      rwa [htasks, spawn, List.length_append] at this
    rw [htasks, spawn, List.getElem?_append_left (by omega)] at hother
    exact hended other (List.mem_of_getElem? hother)

theorem Manages.ended (h : Manages s stream last task) (htask : task.ended) :
    ∀ other ∈ s.tasks, other.ended := by
  intro other hother
  obtain ⟨place, hplace⟩ := List.getElem?_of_mem hother
  by_cases hlast : place = last
  · subst hlast
    obtain rfl := Option.some.inj (h.found.symm.trans hplace)
    exact htask
  · exact h.earlier place other hplace hlast

theorem Inv.setPhase (h : Inv s) (htask : s.tasks[place]? = some task) (phase : TaskPhase)
    (hended : ({ task with phase } : Task).ended = task.ended) : Inv (s.setPhase place phase) := by
  cases hstream : s.stream with
  | none =>
    rw [Inv, hstream] at h
    rw [h] at htask
    cases htask
  | some stream =>
    obtain ⟨last, found, hmanages⟩ := h.manages hstream
    by_cases hlast : last = place
    · subst hlast
      obtain rfl := Option.some.inj (htask.symm.trans hmanages.found)
      have hnext : Manages (s.setPhase last phase) stream last { task with phase } := by
        refine hmanages.modify (f := fun task => { task with phase }) rfl ?_ ?_
        · rw [hended]
          exact hmanages.running
        · rw [hended]
          exact hmanages.stopped
      exact hnext.inv hstream
    · have hnext : Manages (s.setPhase place phase) stream last found := {
        length := by rw [Server.setPhase, List.length_modify, hmanages.length]
        found := by
          rw [Server.setPhase, List.getElem?_modify_ne _ _ (Ne.symm hlast), hmanages.found]
        running := hmanages.running
        stopped := hmanages.stopped
        earlier := by
          intro place' other hother hplace'
          by_cases hsame : place' = place
          · subst hsame
            rw [Server.setPhase, List.getElem?_modify_eq, htask] at hother
            obtain rfl := Option.some.inj hother
            rw [hended]
            exact hmanages.earlier place' task htask hplace'
          · rw [Server.setPhase, List.getElem?_modify_ne _ _ (Ne.symm hsame)] at hother
            exact hmanages.earlier place' other hother hplace' }
      exact hnext.inv hstream

end Inv

/-! ### One step -/

section Step

variable {s t : Server} {collectionId : CollectionId} {streamId : String}

theorem matching_ok {stream : ManagedStream} (h : s.matching collectionId streamId = .ok stream) :
    s.stream = some stream := by
  unfold matching at h
  split at h
  · rename_i found hfound
    split at h
    · cases h
      exact hfound
    · cases h
  · cases h

theorem getStream_shown {lag : Option UInt64} {view : StreamView}
    (h : s.getStream lag collectionId streamId = .ok view) : s.shown = some view.state := by
  unfold getStream at h
  cases hmatching : s.matching collectionId streamId with
  | error failure =>
    rw [hmatching] at h
    cases h
  | ok stream =>
    rw [hmatching] at h
    cases h
    rw [shown, matching_ok hmatching]
    rfl

theorem createStream_ok {resolve : String → Option String} {collection : String} {found : Bool}
    {request : CreateStreamRequest}
    (h : s.createStream resolve collection collectionId found request = .ok t) :
    s.stream = none ∧ t.tasks = s.spawn ∧ ∃ stream, t.stream = some stream ∧
      stream.state.state = .running ∧ stream.task = some s.tasks.length := by
  unfold createStream at h
  split at h
  · cases h
  split at h
  · cases h
  · rename_i hnone
    obtain ⟨config, -, h⟩ := except_bind_ok.mp h
    cases h
    exact ⟨by simpa using hnone, rfl, _, rfl, rfl, rfl⟩

theorem pauseStream_ok (h : s.pauseStream collectionId streamId = .ok t) :
    ∃ stream, s.matching collectionId streamId = .ok stream ∧ stream.state.state = .running ∧
      t.tasks = s.abort stream.task ∧
        t.stream = some { stream with state := ⟨.paused, none⟩, task := none } := by
  unfold pauseStream at h
  obtain ⟨stream, hstream, h⟩ := except_bind_ok.mp h
  split at h
  · cases h
  · rename_i hrunning
    cases h
    exact ⟨stream, hstream, not_not.mp hrunning, rfl, rfl⟩

theorem step_pause {stream : ManagedStream} (hmatching : s.matching collectionId streamId = .ok stream)
    (hrunning : stream.state.state = .running) :
    s.step (.pause collectionId streamId) = {
      stream := some { stream with state := ⟨.paused, none⟩, task := none }
      tasks := s.abort stream.task } := by
  simp [step, pauseStream, hmatching, hrunning, respond, bind, Except.bind, pure, Except.pure]

theorem resumeStream_ok (h : s.resumeStream collectionId streamId = .ok t) :
    ∃ stream, s.stream = some stream ∧ stream.state.state ≠ .running ∧ t.tasks = s.spawn ∧
      t.stream = some { stream with state := ⟨.running, none⟩, task := some s.tasks.length } := by
  unfold resumeStream at h
  obtain ⟨stream, hstream, h⟩ := except_bind_ok.mp h
  split at h
  · cases h
  · rename_i hstopped
    cases h
    refine ⟨stream, matching_ok hstream, ?_, rfl, rfl⟩
    intro hrunning
    exact hstopped (by simp [hrunning])

theorem inv_step_create {resolve : String → Option String} {collection : String} {found : Bool}
    {request : CreateStreamRequest} (h : Inv s) :
    Inv (s.step (.create resolve collection collectionId found request)) := by
  simp only [step, respond]
  split
  · rename_i next hnext
    obtain ⟨hnone, htasks, stream, hstream, hstate, htask⟩ := createStream_ok hnext
    rw [Inv, hnone] at h
    refine (manages_spawn htasks ?_ hstate htask).inv hstream
    rw [h]
    exact List.forall_mem_nil _
  · exact h

theorem inv_step_pause (h : Inv s) (hcareful : Careful s (.pause collectionId streamId)) :
    Inv (s.step (.pause collectionId streamId)) := by
  simp only [step, respond]
  split
  · rename_i next hnext
    obtain ⟨stream, hmatching, hrunning, htasks, hstream⟩ := pauseStream_ok hnext
    obtain ⟨last, task, hmanages⟩ := h.manages (matching_ok hmatching)
    obtain ⟨hlast, -, -⟩ := hmanages.running hrunning
    have hawaiting : task.phase = .awaiting :=
      hcareful stream hmatching hrunning last hlast task hmanages.found
    rw [hlast] at htasks
    refine (hmanages.modify htasks (fun hnot => by cases hnot) ?_).inv hstream
    intro _
    simp [Task.ended, hawaiting]
  · exact h

theorem inv_step_resume (h : Inv s) : Inv (s.step (.resume collectionId streamId)) := by
  simp only [step, respond]
  split
  · rename_i next hnext
    obtain ⟨stream, hstream, hstopped, htasks, hnew⟩ := resumeStream_ok hnext
    obtain ⟨last, task, hmanages⟩ := h.manages hstream
    exact (manages_spawn htasks (hmanages.ended (hmanages.stopped hstopped)) rfl rfl).inv hnew
  · exact h

theorem inv_step_await (place : ℕ) (h : Inv s) : Inv (s.step (.await place)) := by
  simp only [step]
  split
  · rename_i aborted htask
    -- a task that runs is the last one, and not aborted
    obtain ⟨stream, -, hrunning, hmanages⟩ := h.live htask rfl
    refine h.setPhase htask .awaiting ?_
    simpa [Task.ended] using (hmanages.running hrunning).2.2
  · exact h

theorem inv_step_record (place : ℕ) (h : Inv s) : Inv (s.step (.record place)) := by
  simp only [step]
  split
  · rename_i error aborted htask
    obtain ⟨stream, hstream, -, hmanages⟩ := h.live htask rfl
    rw [hstream]
    exact (hmanages.modify (f := fun task => { task with phase := .finished }) rfl
      (fun hnot => by cases hnot) (fun _ => rfl)).inv rfl
  · exact h

theorem inv_step (event : Event) (h : Inv s) (hcareful : Careful s event) :
    Inv (s.step event) := by
  cases event with
  | create resolve collection collectionId found request => exact inv_step_create h
  | pause collectionId streamId => exact inv_step_pause h hcareful
  | resume collectionId streamId => exact inv_step_resume h
  | await place => exact inv_step_await place h
  | record place => exact inv_step_record place h
  | returnOk place =>
    simp only [step]
    split
    · rename_i aborted htask
      exact absurd rfl (hcareful _ htask)
    · exact h
  | run place | cancel place | returnErr place error =>
    simp only [step]
    split
    · rename_i htask
      exact h.setPhase htask _ rfl
    · exact h

/-- After a pause that meets its task elsewhere, the task goes on beside a paused stream. -/
theorem not_singleConsumer_pause (h : Inv s)
    (hcareful : ¬ Careful s (.pause collectionId streamId)) :
    ¬ SingleConsumer (s.step (.pause collectionId streamId)) := by
  simp only [Careful, not_forall] at hcareful
  obtain ⟨stream, hmatching, hrunning, place, hplace, task, htask, hphase⟩ := hcareful
  obtain ⟨last, found, hmanages⟩ := h.manages (matching_ok hmatching)
  obtain ⟨hlast, hlive, -⟩ := hmanages.running hrunning
  obtain rfl : last = place := Option.some.inj (hlast.symm.trans hplace)
  obtain rfl : found = task := Option.some.inj (hmanages.found.symm.trans htask)
  -- the stream is shown paused, but its task has not ended
  rw [step_pause hmatching hrunning]
  intro hsingle
  have hrunning' := hsingle.running.mpr ⟨last, { found with aborted := true }, ?_, ?_⟩
  · cases hrunning'
  · simp only [hlast, abort]
    rw [List.getElem?_modify_eq, htask]
    rfl
  · simpa [Task.ended, hphase] using hlive

/-- After a return with `Ok`, no task goes on and the stream is shown running. -/
theorem not_singleConsumer_returnOk (place : ℕ) (h : Inv s)
    (hcareful : ¬ Careful s (.returnOk place)) : ¬ SingleConsumer (s.step (.returnOk place)) := by
  simp only [Careful, not_forall, not_not] at hcareful
  obtain ⟨task, htask, hprocessing⟩ := hcareful
  obtain ⟨stream, hstream, hrunning, hmanages⟩ := h.live htask (live_of_processing hprocessing)
  have hstep : s.step (.returnOk place) = s.setPhase place .finished := by
    obtain ⟨phase, aborted⟩ := task
    obtain rfl : phase = .processing := hprocessing
    have htask' : s.tasks[place]? = some ⟨.processing, aborted⟩ := htask
    simp only [step, htask']
  rw [hstep]
  intro hsingle
  have hshown : (s.setPhase place .finished).shown = some .running := by
    rw [shown, setPhase, hstream, Option.map_some, hrunning]
  obtain ⟨other, live, hother, hlive⟩ := hsingle.running.mp hshown
  by_cases hsame : other = place
  · subst hsame
    rw [setPhase, List.getElem?_modify_eq, htask] at hother
    obtain rfl := Option.some.inj hother
    cases hlive
  · rw [setPhase, List.getElem?_modify_ne _ _ (Ne.symm hsame)] at hother
    rw [hmanages.earlier other live hother hsame] at hlive
    cases hlive

end Step

/-- There is a single consumer in every state of a run exactly if every pause that takes effect
meets its task at an await point and no task returns `Ok`. -/
theorem singleConsumer_iff (events : List Event) :
    (∀ earlier, earlier <+: events → SingleConsumer (earlier.foldl step start)) ↔
      Allowed step Careful start events := by
  refine forall_prefix_iff_allowed (I := Inv) (fun _ => Inv.singleConsumer)
    (fun _ event hinv hcareful => inv_step event hinv hcareful) ?_ events inv_start
  intro s event hinv hcareful
  cases event with
  | pause collectionId streamId => exact not_singleConsumer_pause hinv hcareful
  | returnOk place => exact not_singleConsumer_returnOk place hinv hcareful
  | _ => exact absurd trivial hcareful

/-- A task is paused while it processes, and the stream is resumed. -/
def resumedRun : List Event :=
  [.create (fun _ => none) "a" ⟨"a", CollectionId.validate_a⟩ true {
      brokers := "b"
      topic := "t"
      groupId := "g"
      batchMaxRecords := 128
      batchLingerMs := 50
      dlqTopic := none
      securityProtocol := none
      saslMechanism := none
      saslUsernameRef := none
      saslPasswordRef := none },
    .run 0, .pause ⟨"a", CollectionId.validate_a⟩ "stream-a", .resume ⟨"a", CollectionId.validate_a⟩ "stream-a", .run 1]

theorem resumedRun_tasks :
    (resumedRun.foldl step start).tasks = [⟨.processing, true⟩, ⟨.processing, false⟩] := by
  decide

theorem not_singleConsumer_resumedRun : ¬ SingleConsumer (resumedRun.foldl step start) := by
  intro h
  have htasks := resumedRun_tasks
  have hsame := h.one 0 1 ⟨.processing, true⟩ ⟨.processing, false⟩ (by rw [htasks]; rfl)
    (by rw [htasks]; rfl) rfl rfl
  cases hsame

end Server

end Ketebe.Kafka
