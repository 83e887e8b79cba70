import Mathlib.Algebra.Group.Nat.Defs
import Mathlib.Order.Compare
import Std.Data.ExtTreeMap

/-!
Background jobs. A submitted job has a record in a file of its own and a task that
waits for permits, runs the body and records how it ended. Cancellations of the job
run beside its task. Every call of the store, every access to the flag of a job and
every change of a counter is one step.
-/
namespace Ketebe

inductive JobState where
  | queued
  | running
  | completed
  | failed
  | cancelled
  deriving DecidableEq, Repr

/-- A job in such a state has ended. -/
def JobState.Terminal (state : JobState) : Prop :=
  state = .completed ∨ state = .failed ∨ state = .cancelled

instance (state : JobState) : Decidable state.Terminal :=
  inferInstanceAs (Decidable (_ ∨ _))

inductive JobKind where
  | embeddingMigrationCatchUp (collectionId : String)
  | backupCreate (collectionId : String)
  | backupRestore (backupId : String)
  deriving DecidableEq, Repr

inductive JobResult where
  | backupCreated (backupId : String)
  | backupRestored (backupId collectionId : String)
  deriving DecidableEq, Repr

structure JobProgress where
  completed : ℕ
  total : Option ℕ
  message : Option String
  deriving DecidableEq, Repr

def JobProgress.queued : JobProgress := ⟨0, none, some "queued"⟩

structure JobFailure where
  code : String
  message : String
  deriving DecidableEq, Repr

structure JobRecord where
  version : ℕ
  id : ℕ
  kind : JobKind
  state : JobState
  progress : JobProgress
  error : Option JobFailure
  result : Option JobResult
  cancelRequested : Bool
  createdAtUnixMs : ℕ
  updatedAtUnixMs : ℕ
  deriving DecidableEq, Repr

inductive JobServiceError where
  | invalidJobId
  | runtimeDraining
  | jobNotFound (id : ℕ)
  | corrupt (message : String)
  deriving DecidableEq, Repr

def jobVersion : ℕ := 1

def newJobId (value : ℕ) : Except JobServiceError ℕ :=
  if value = 0 then .error .invalidJobId else .ok value

def validateRecord (record : JobRecord) : Except JobServiceError Unit :=
  if record.version ≠ jobVersion then
    .error (.corrupt ("unsupported job version " ++ toString record.version))
  else do
    let _ ← newJobId record.id
    pure ()

/-! ### Changes of a record -/

namespace JobRecord

def submitted (id now : ℕ) (kind : JobKind) : JobRecord where
  version := jobVersion
  id
  kind
  state := .queued
  progress := .queued
  error := none
  result := none
  cancelRequested := false
  createdAtUnixMs := now
  updatedAtUnixMs := now

def withMessage (record : JobRecord) (message : String) : JobRecord :=
  { record with progress := { record.progress with message := some message } }

/-- What a call of `cancel` writes. -/
def cancel (record : JobRecord) : JobRecord :=
  match record.state with
  | .queued => { record.withMessage "cancelled before execution" with
      state := .cancelled, cancelRequested := true, error := none }
  | .running => { record with cancelRequested := true }
  | .completed | .failed | .cancelled => record

/-- What the task writes when it finds its job cancelled. -/
def abandon (record : JobRecord) : JobRecord :=
  { record.withMessage "cancelled before execution" with
    state := .cancelled, cancelRequested := true }

def start (record : JobRecord) : JobRecord :=
  match record.kind with
  | .embeddingMigrationCatchUp _ =>
      { record.withMessage "embedding migration catch-up running" with state := .running }
  | .backupCreate _ => { record with
      state := .running
      progress := { record.progress with total := some 1, message := some "backup snapshot running" } }
  | .backupRestore _ => { record with
      state := .running
      progress := { record.progress with total := some 1, message := some "backup restore running" } }

def fail (record : JobRecord) (code message : String) : JobRecord :=
  { record.withMessage "job failed" with state := .failed, error := some ⟨code, message⟩ }

def interrupt (record : JobRecord) (now : ℕ) : JobRecord :=
  { record.withMessage "interrupted by restart" with
    state := .failed
    error := some ⟨"interrupted_by_restart",
      "job did not complete before the previous process stopped"⟩
    updatedAtUnixMs := now }

end JobRecord

/-- What the body of a job returns when it succeeds. -/
inductive JobReport where
  | migration (completedRecords totalManagedRecords : ℕ)
  | backup (result : JobResult)

def JobRecord.complete (record : JobRecord) : JobReport → JobRecord
  | .migration completedRecords totalManagedRecords => { record with
      state := .completed
      progress := ⟨completedRecords, some totalManagedRecords,
        some "embedding migration catch-up completed"⟩
      error := none }
  | .backup result => { record with
      state := .completed
      progress := ⟨1, some 1, some "backup operation completed"⟩
      error := none
      result := some result }

def JobKind.failureCode : JobKind → String
  | .embeddingMigrationCatchUp _ => "embedding_migration_catch_up_failed"
  | .backupCreate _ => "backup_create_failed"
  | .backupRestore _ => "backup_restore_failed"

/-! ### Tasks and calls -/

/-- Where the submission of a job, and then its task, stands: what it does next. -/
inductive JobPhase where
  | installing
  | counting
  /-- Waiting for the permits. -/
  | waiting
  | reading
  | loading (current : Except JobServiceError JobRecord)
  | abandoning
  | uncounting
  | countingCancelled
  | starting
  | leavingQueue
  | entering
  /-- The body runs. -/
  | running
  | completing (report : JobReport)
  | leaving
  | countingCompleted
  /-- `fail_job`, and whether the flag is removed after it. -/
  | failing (code message : String) (removes : Bool)
  | failingRead (code message : String) (removes : Bool) (state : JobState)
  | failingUpdate (code message : String) (removes : Bool) (state : JobState)
  | countingFailed (removes : Bool)
  | removing
  | done

/-- Where a call of `cancel` stands. -/
inductive CancelPhase where
  | reading
  | requesting (wasQueued : Bool)
  | updating (wasQueued : Bool)
  | uncounting (record : JobRecord)
  | counting (record : JobRecord)
  | answered (result : Except JobServiceError JobRecord)

/-- The call returns the job as cancelled. -/
def CancelPhase.returnsCancelled : CancelPhase → Bool
  | .answered (.ok record) => record.state = .cancelled
  | _ => false

/-- The file of a job, its cancellation flag, its task and the calls about it. What is
kept besides is the history of the job: the terminal counters that were incremented for
it, whether this process submitted or recovered it, whether its body ran and whether
some call returned it as cancelled. -/
structure Job where
  record : JobRecord
  cancellation : Option Bool
  task : Option JobPhase
  calls : List CancelPhase
  counted : List JobState
  ofProcess : Bool
  ran : Bool
  returnedCancelled : Bool

/-- The gauges `JOBS_QUEUED` and `JOBS_RUNNING`. Their decrement saturates. -/
structure Gauges where
  queued : ℕ
  running : ℕ

namespace Gauges

def enterQueue (gauges : Gauges) : Gauges := { gauges with queued := gauges.queued + 1 }

def leaveQueue (gauges : Gauges) : Gauges := { gauges with queued := gauges.queued - 1 }

def enterRunning (gauges : Gauges) : Gauges := { gauges with running := gauges.running + 1 }

def leaveRunning (gauges : Gauges) : Gauges := { gauges with running := gauges.running - 1 }

/-- The decrement of `fail_job`. -/
def leave (gauges : Gauges) : JobState → Gauges
  | .queued => gauges.leaveQueue
  | .running => gauges.leaveRunning
  | .completed | .failed | .cancelled => gauges

end Gauges

inductive Admission where
  | admitted
  | executorShutdown
  | resourceUnavailable (error : String)

namespace Job

def submitted (id now : ℕ) (kind : JobKind) : Job :=
  ⟨.submitted id now kind, none, some .installing, [], [], true, false, false⟩

/-- `JobStore::get`. -/
def get (job : Job) (id : ℕ) : Except JobServiceError JobRecord := do
  validateRecord job.record
  if job.record.id ≠ id then
    .error (.corrupt ("job file identity mismatch: requested " ++ toString id ++ ", found " ++
      toString job.record.id))
  else pure job.record

/-- `JobStore::update`. -/
def update (job : Job) (id now : ℕ) (change : JobRecord → JobRecord) :
    Except JobServiceError JobRecord := do
  let record ← job.get id
  pure { change record with updatedAtUnixMs := now }

/-- The file after an update, which leaves it alone when it fails. -/
def write (job : Job) (result : Except JobServiceError JobRecord) : Job :=
  match result with
  | .ok record => { job with record }
  | .error _ => job

def goto (job : Job) (phase : JobPhase) : Job := { job with task := some phase }

def count (job : Job) (state : JobState) : Job := { job with counted := job.counted ++ [state] }

def stateOf (current : Except JobServiceError JobRecord) : Option JobState :=
  match current with
  | .ok record => some record.state
  | .error _ => none

def afterFailure (removes : Bool) : JobPhase := if removes then .removing else .done

section Steps

variable (job : Job) (id now : ℕ) (gauges : Gauges)

/-- The next step of the task. -/
def advance : JobPhase → Job × Gauges
  | .installing => ({ job.goto .counting with cancellation := some false }, gauges)
  | .counting => (job.goto .waiting, gauges.enterQueue)
  | .reading => (job.goto (.loading (job.get id)), gauges)
  | .loading current =>
      if job.cancellation = some true ∨ stateOf current = some .cancelled then
        if stateOf current = some .queued then (job.goto .abandoning, gauges)
        else (job.goto .removing, gauges)
      else (job.goto .starting, gauges)
  | .abandoning => ((job.write (job.update id now .abandon)).goto .uncounting, gauges)
  | .uncounting => (job.goto .countingCancelled, gauges.leaveQueue)
  | .countingCancelled => ((job.count .cancelled).goto .removing, gauges)
  | .starting =>
      match job.update id now .start with
      | .ok record => ({ job with record }.goto .leavingQueue, gauges)
      | .error _ => (job.goto .removing, gauges)
  | .leavingQueue => (job.goto .entering, gauges.leaveQueue)
  | .entering => ({ job.goto .running with ran := true }, gauges.enterRunning)
  | .completing report =>
      ((job.write (job.update id now (·.complete report))).goto .leaving, gauges)
  | .leaving => (job.goto .countingCompleted, gauges.leaveRunning)
  | .countingCompleted => ((job.count .completed).goto .removing, gauges)
  | .failing code message removes =>
      match job.get id with
      | .ok record => (job.goto (.failingRead code message removes record.state), gauges)
      | .error _ => (job.goto (afterFailure removes), gauges)
  | .failingRead code message removes state =>
      (job.goto (.failingUpdate code message removes state), gauges.leave state)
  | .failingUpdate code message removes _ =>
      match job.update id now (·.fail code message) with
      | .ok record => ({ job with record }.goto (.countingFailed removes), gauges)
      | .error _ => (job.goto (afterFailure removes), gauges)
  | .countingFailed removes => ((job.count .failed).goto (afterFailure removes), gauges)
  | .removing => ({ job.goto .done with cancellation := none }, gauges)
  -- The permits and the body come from elsewhere.
  | .waiting | .running | .done => (job, gauges)

def admitTask (admission : Admission) : Job :=
  match job.task with
  | some .waiting =>
      match admission with
      | .admitted => job.goto .reading
      | .executorShutdown => job.goto
          (.failing "executor_shutdown" "background job executor is shutting down" false)
      | .resourceUnavailable error => job.goto (.failing "resource_scheduler_unavailable"
          ("background job resource admission failed: " ++ error) true)
  | _ => job

def finishBody (outcome : Except String JobReport) : Job :=
  match job.task with
  | some .running =>
      match outcome with
      | .ok report => job.goto (.completing report)
      | .error message => job.goto (.failing job.record.kind.failureCode message true)
  | _ => job

def isBackup : JobKind → Bool
  | .backupCreate _ | .backupRestore _ => true
  | .embeddingMigrationCatchUp _ => false

/-- What a call of `cancel` does after it has read the record. -/
def requestCancel (current : Except JobServiceError JobRecord) : CancelPhase :=
  match current with
  | .error error => .answered (.error error)
  | .ok record =>
      if record.state.Terminal then .answered (.ok record)
      else if record.state = .running ∧ isBackup record.kind then .answered (.ok record)
      else .requesting (record.state = .queued)

/-- The next step of a call of `cancel`. -/
def advanceCancel : CancelPhase → Job × CancelPhase × Gauges
  | .reading => (job, requestCancel (job.get id), gauges)
  | .requesting wasQueued =>
      ({ job with cancellation := job.cancellation.map fun _ => true }, .updating wasQueued, gauges)
  | .updating wasQueued =>
      match job.update id now .cancel with
      | .error error => (job, .answered (.error error), gauges)
      | .ok record =>
          ({ job with record }, if wasQueued ∧ record.state = .cancelled then .uncounting record
            else .answered (.ok record), gauges)
  | .uncounting record => (job, .counting record, gauges.leaveQueue)
  | .counting record => (job.count .cancelled, .answered (.ok record), gauges)
  | .answered result => (job, .answered result, gauges)

end Steps

end Job

/-! ### The service -/

/-- The jobs of the data directory with what this process runs, and the ids that were
given out so far. -/
structure JobRuntime where
  jobs : Std.ExtTreeMap ℕ Job compare
  gauges : Gauges
  interrupted : ℕ
  submitted : List ℕ

/-- A step of the service; a restart ends all tasks and calls. -/
inductive JobEvent where
  | submit (now : ℕ) (ready : Bool) (kind : JobKind)
  | advance (now id : ℕ)
  | admitTask (id : ℕ) (admission : Admission)
  | finishBody (id : ℕ) (outcome : Except String JobReport)
  | cancel (id : ℕ)
  | advanceCancel (now id call : ℕ)
  | restart (now : ℕ)

namespace JobRuntime

/-- A process on an empty directory. -/
def opened : JobRuntime := ⟨∅, ⟨0, 0⟩, 0, []⟩

/-- Ids fill 64 bits. -/
def nextId (jobs : Std.ExtTreeMap ℕ Job compare) : Except JobServiceError ℕ :=
  let next := jobs.keys.foldl max 0 + 1
  if next < 2 ^ 64 then .ok next else .error (.corrupt "job id space exhausted")

/-- `JobStore::create`. -/
def create (runtime : JobRuntime) (now : ℕ) (kind : JobKind) :
    Except JobServiceError (JobRuntime × JobRecord) := do
  let next ← nextId runtime.jobs
  let id ← newJobId next
  let job := Job.submitted id now kind
  pure ({ runtime with
    jobs := runtime.jobs.insert id job, submitted := runtime.submitted ++ [id] }, job.record)

def submit (runtime : JobRuntime) (now : ℕ) (ready : Bool) (kind : JobKind) :
    Except JobServiceError (JobRuntime × JobRecord) :=
  if ready then runtime.create now kind else .error .runtimeDraining

/-- One job as a restart leaves it. -/
def recoverJob (now : ℕ) (job : Job) : Except JobServiceError Job := do
  validateRecord job.record
  let interrupted := job.record.state = .queued ∨ job.record.state = .running
  pure { job with
    record := if interrupted then job.record.interrupt now else job.record
    cancellation := none
    task := none
    calls := []
    counted := if interrupted then [.failed] else []
    ofProcess := interrupted }

/-- The jobs of a new process and how many of them were interrupted. -/
def recoverInterrupted (now : ℕ) (jobs : Std.ExtTreeMap ℕ Job compare) :
    Except JobServiceError (Std.ExtTreeMap ℕ Job compare × ℕ) :=
  jobs.toList.foldlM (fun recovered entry => do
    let job ← recoverJob now entry.2
    pure (recovered.1.insert entry.1 job, recovered.2 + if job.ofProcess then 1 else 0)) (∅, 0)

def put (runtime : JobRuntime) (id : ℕ) (job : Job) : JobRuntime :=
  { runtime with jobs := runtime.jobs.insert id job }

/-- What a step does to a job and the gauges; nothing when there is no such job. -/
def onJob (runtime : JobRuntime) (id : ℕ) (change : Job → Job × Gauges) : JobRuntime :=
  match runtime.jobs[id]? with
  | none => runtime
  | some job => { runtime.put id (change job).1 with gauges := (change job).2 }

/-- A call that has just been answered is noted in the history. -/
def withCall (job : Job) (call : ℕ) (phase : CancelPhase) : Job :=
  { job with
    calls := job.calls.set call phase
    returnedCancelled := job.returnedCancelled || phase.returnsCancelled }

def step (runtime : JobRuntime) : JobEvent → JobRuntime
  | .submit now ready kind =>
      match runtime.submit now ready kind with
      | .ok (runtime, _) => runtime
      | .error _ => runtime
  | .advance now id => runtime.onJob id fun job =>
      match job.task with
      | none => (job, runtime.gauges)
      | some phase => job.advance id now runtime.gauges phase
  | .admitTask id admission => runtime.onJob id fun job => (job.admitTask admission, runtime.gauges)
  | .finishBody id outcome => runtime.onJob id fun job => (job.finishBody outcome, runtime.gauges)
  -- There is nothing to cancel in a job that does not exist.
  | .cancel id => runtime.onJob id fun job =>
      ({ job with calls := job.calls ++ [.reading] }, runtime.gauges)
  | .advanceCancel now id call => runtime.onJob id fun job =>
      match job.calls[call]? with
      | none => (job, runtime.gauges)
      | some phase =>
          let (job, phase, gauges) := job.advanceCancel id now runtime.gauges phase
          (withCall job call phase, gauges)
  -- A process that cannot recover its jobs does not start.
  | .restart now =>
      match recoverInterrupted now runtime.jobs with
      | .ok (jobs, interrupted) => { runtime with jobs, gauges := ⟨0, 0⟩, interrupted }
      | .error _ => runtime

end JobRuntime

end Ketebe
