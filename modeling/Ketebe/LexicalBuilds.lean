import Ketebe.LexicalRuntime
import Ketebe.LexicalWriters

/-!
Lexical indexes built in the background. Writers, build tasks and queries of one
collection interleave: every section under a lock and every call of the file
system is one step. Queries keep the read lock of the catalog from their first
step to their answer; the permits of the scheduler only delay tasks and are left out.
-/
namespace Ketebe

open Lib.ByteCodec Lib.Durable LexicalSnapshotFile WriteService LexicalRuntime

/-- What a build or a query works on, as read under the catalog lock. -/
structure LexicalJob where
  checkpoint : Checkpoint
  segments : List Segment
  fields : List FieldPath
  analyzer : LexicalAnalyzerConfig

namespace LexicalJob

def fingerprint (job : LexicalJob) : UInt64 :=
  lexicalCheckpointFingerprint job.checkpoint job.fields job.analyzer

def build [Unicode] [LexicalArith] (job : LexicalJob) : Except LexicalIndexError LexicalIndex :=
  LexicalIndex.build job.segments job.checkpoint.collectionId job.fields job.analyzer
    job.fingerprint

/-- What reading a file with these bytes under the fingerprint of the job comes to. -/
def readSnapshot (job : LexicalJob) (bytes : Bytes) : Except LexicalIndexError LexicalLoadResult :=
  LexicalIndexStore.load ⟨(∅ : Std.ExtTreeMap UInt64 Bytes compare).insert job.fingerprint bytes⟩
    job.checkpoint job.fields job.analyzer job.segments

end LexicalJob

/-- The job of a collection whose state a lexical index can stand for. -/
def CollectionRuntime.lexicalJob (runtime : CollectionRuntime) : Option LexicalJob :=
  (runtime.indexedCheckpoint runtime.configuredLexicalFields).map fun checkpoint =>
    ⟨checkpoint, runtime.segments, runtime.configuredLexicalFields,
      runtime.configuredLexicalAnalyzer⟩

/-! ### Files -/

/-- Files were there from the start or are created by an attempt of a task. -/
inductive FileId where
  | initial (fingerprint : UInt64)
  | created (task attempt : ℕ)
  deriving DecidableEq

/-- The names in the index directory and what the files hold. A file without a
name remains for those who have it open. -/
structure LexicalDirectory where
  snapshots : Std.ExtTreeMap UInt64 FileId compare
  temporaries : Std.ExtTreeMap UInt64 FileId compare
  contents : FileId → Bytes

namespace LexicalDirectory

def ofStore (store : LexicalIndexStore) : LexicalDirectory where
  snapshots := store.files.map fun fingerprint _ => .initial fingerprint
  temporaries := ∅
  contents
    | .initial fingerprint => (store.files[fingerprint]?).getD []
    | .created _ _ => []

variable (directory : LexicalDirectory) (fingerprint : UInt64)

def removeSnapshot : LexicalDirectory :=
  { directory with snapshots := directory.snapshots.erase fingerprint }

def removeTemporary : LexicalDirectory :=
  { directory with temporaries := directory.temporaries.erase fingerprint }

def createTemporary (file : FileId) : LexicalDirectory where
  snapshots := directory.snapshots
  temporaries := directory.temporaries.insert fingerprint file
  contents := Function.update directory.contents file []

def append (file : FileId) (chunk : Bytes) : LexicalDirectory :=
  { directory with
    contents := Function.update directory.contents file (directory.contents file ++ chunk) }

/-- The file may replace another snapshot of the same name. -/
def rename (file : FileId) : LexicalDirectory where
  snapshots := directory.snapshots.insert fingerprint file
  temporaries := directory.temporaries.erase fingerprint
  contents := directory.contents

end LexicalDirectory

def notFound : LexicalIndexError := .io "No such file or directory (os error 2)"

def alreadyExists : LexicalIndexError := .io "File exists (os error 17)"

/-! ### The state -/

/-- The calls of `publish` and `garbage_collect` in their order. -/
inductive PublishPhase where
  | findSnapshot
  | findTemporary
  | removeTemporary
  | createTemporary
  | write (rest : Bytes)
  | rename
  | list
  | collect (fingerprints : List UInt64)

inductive BuildPhase where
  | registering
  | starting (attempt : ℕ)
  | queued (attempt : ℕ)
  | admitted (attempt : ℕ)
  | checking (attempt : ℕ)
  | building (attempt : ℕ)
  | publishing (attempt : ℕ) (index : LexicalIndex) (phase : PublishPhase)
  | built (attempt : ℕ) (result : Except LexicalIndexError LexicalIndex)
  | confirming (attempt : ℕ) (result : Except LexicalIndexError LexicalIndex)
  | rechecking (attempt : ℕ) (result : Except LexicalIndexError LexicalIndex)
  | installing (index : LexicalIndex)
  /-- Removing the snapshot; whether `finish` follows. -/
  | findingStale (finishes : Bool)
  | removingStale (finishes : Bool)
  | finishing
  | done

inductive BuildTask where
  | scheduling
  | dismissed
  | running (job : LexicalJob) (phase : BuildPhase)

inductive LookupPhase where
  | cache
  | locate
  | open
  | read (file : FileId)
  | install (index : LexicalIndex)

inductive QueryPhase (S : Type) where
  | searching (prepared : PreparedQuery) (job : LexicalJob) (phase : LookupPhase)
  | answered (result : Except QueryV1Error (List (QueryV1Hit S)))

def QueryPhase.isAnswered {S : Type} : QueryPhase S → Bool
  | .searching _ _ _ => false
  | .answered _ => true

/-- A query with the runtime that its lock protects. -/
structure LexicalQueryRun (S : Type) where
  request : QueryV1Request
  control : QueryControl
  runtime : CollectionRuntime
  phase : QueryPhase S

namespace LexicalQueryRun

variable {S : Type} [Unicode] [LexicalArith] [ScoreArith S]

/-- The answer with the index that the lookup found. -/
def finish (query : LexicalQueryRun S) (prepared : PreparedQuery)
    (persistent : Except LexicalIndexError (Option LexicalIndex)) : LexicalQueryRun S :=
  { query with
    phase := .answered (answer S query.runtime query.request prepared query.control persistent) }

/-- The answer with an index built for this query. -/
def freshAnswer (runtime : CollectionRuntime) (request : QueryV1Request) (control : QueryControl) :
    Except QueryV1Error (List (QueryV1Hit S)) := do
  let prepared ← prepare runtime request
  answer S runtime request prepared control (.ok none)

/-- The first section of a query, which takes the read lock. -/
def start (runtime : CollectionRuntime) (request : QueryV1Request)
    (control : QueryControl) : LexicalQueryRun S :=
  match prepare runtime request with
  | .error error => ⟨request, control, runtime, .answered (.error error)⟩
  | .ok prepared =>
      match runtime.indexedCheckpoint prepared.query.fields with
      | none => ⟨request, control, runtime,
          .answered (answer S runtime request prepared control (.ok none))⟩
      | some checkpoint => ⟨request, control, runtime, .searching prepared ⟨checkpoint,
          runtime.segments, runtime.configuredLexicalFields, runtime.configuredLexicalAnalyzer⟩
          .cache⟩

end LexicalQueryRun

structure LexicalBuilds (F S : Type) where
  store : Store F
  cache : Std.ExtTreeMap UInt64 LexicalIndex compare
  latest : Option UInt64
  draining : Bool
  directory : LexicalDirectory
  tasks : List BuildTask
  queries : List (LexicalQueryRun S)

/-- The default number of attempts. -/
def lexicalBuildAttempts : ℕ := 3

namespace LexicalBuilds

variable {F S : Type}

def setTask (builds : LexicalBuilds F S) (position : ℕ) (task : BuildTask) : LexicalBuilds F S :=
  { builds with tasks := builds.tasks.set position task }

def currentFingerprint (builds : LexicalBuilds F S) : Option UInt64 :=
  (builds.store.runtime.bind CollectionRuntime.lexicalJob).map LexicalJob.fingerprint

def install (builds : LexicalBuilds F S) (fingerprint : UInt64) (index : LexicalIndex) :
    LexicalBuilds F S :=
  { builds with
    cache := (∅ : Std.ExtTreeMap UInt64 LexicalIndex compare).insert fingerprint index }

/-- No query holds the read lock. -/
def unlocked (builds : LexicalBuilds F S) : Bool :=
  builds.queries.all fun query => query.phase.isAnswered

/-! ### Build tasks -/

section Tasks

variable [Unicode] [LexicalArith] (builds : LexicalBuilds F S) (position : ℕ) (job : LexicalJob)

def enter (phase : BuildPhase) : LexicalBuilds F S :=
  builds.setTask position (.running job phase)

/-- After the snapshot is removed, or was not there. -/
def afterRemoval (finishes : Bool) : BuildPhase :=
  if finishes then .finishing else .done

/-- One call of `publish` or `garbage_collect`; a written chunk has at least one byte. -/
def publishStep (attempt : ℕ) (index : LexicalIndex) (count : ℕ) : PublishPhase → LexicalBuilds F S
  | .findSnapshot =>
      match builds.directory.snapshots[job.fingerprint]? with
      | some _ => enter builds position job (.publishing attempt index .list)
      | none => enter builds position job (.publishing attempt index .findTemporary)
  | .findTemporary =>
      match builds.directory.temporaries[job.fingerprint]? with
      | some _ => enter builds position job (.publishing attempt index .removeTemporary)
      | none => enter builds position job (.publishing attempt index .createTemporary)
  | .removeTemporary =>
      match builds.directory.temporaries[job.fingerprint]? with
      | some _ => enter { builds with
            directory := builds.directory.removeTemporary job.fingerprint }
          position job (.publishing attempt index .createTemporary)
      | none => enter builds position job (.built attempt (.error notFound))
  | .createTemporary =>
      match encodeSnapshot (.fromIndex index), builds.directory.temporaries[job.fingerprint]? with
      | .error error, _ => enter builds position job (.built attempt (.error error))
      | .ok _, some _ => enter builds position job (.built attempt (.error alreadyExists))
      | .ok bytes, none => enter { builds with
            directory := builds.directory.createTemporary job.fingerprint
              (.created position attempt) }
          position job (.publishing attempt index (.write bytes))
  | .write [] => enter builds position job (.publishing attempt index .rename)
  | .write (byte :: rest) =>
      enter { builds with
          directory := builds.directory.append (.created position attempt)
            ((byte :: rest).take (count + 1)) }
        position job (.publishing attempt index (.write ((byte :: rest).drop (count + 1))))
  | .rename =>
      match builds.directory.temporaries[job.fingerprint]? with
      | some file => enter { builds with
            directory := builds.directory.rename job.fingerprint file }
          position job (.publishing attempt index .list)
      | none => enter builds position job (.built attempt (.error notFound))
  | .list => enter builds position job (.publishing attempt index
      (.collect (builds.directory.snapshots.keys.filter fun other => other ≠ job.fingerprint)))
  | .collect [] => enter builds position job (.built attempt (.ok index))
  | .collect (other :: others) =>
      match builds.directory.snapshots[other]? with
      | some _ => enter { builds with directory := builds.directory.removeSnapshot other }
          position job (.publishing attempt index (.collect others))
      | none => enter builds position job (.built attempt (.error notFound))

def runStep (count : ℕ) : BuildPhase → LexicalBuilds F S
  | .registering =>
      if builds.latest = some job.fingerprint then enter builds position job .done
      else enter { builds with latest := some job.fingerprint } position job (.starting 1)
  | .starting attempt =>
      if builds.draining then enter builds position job .finishing
      else enter builds position job (.queued attempt)
  | .queued attempt =>
      if builds.latest = some job.fingerprint then enter builds position job (.admitted attempt)
      else enter builds position job .done
  | .admitted attempt =>
      if builds.latest = some job.fingerprint then enter builds position job (.checking attempt)
      else enter builds position job .done
  | .checking attempt =>
      if builds.currentFingerprint = some job.fingerprint then
        enter builds position job (.building attempt)
      else enter builds position job .finishing
  | .building attempt =>
      match job.build with
      | .ok index => enter builds position job (.publishing attempt index .findSnapshot)
      | .error error => enter builds position job (.built attempt (.error error))
  | .publishing attempt index phase => publishStep builds position job attempt index count phase
  | .built attempt result =>
      if builds.draining then enter builds position job (.findingStale true)
      else enter builds position job (.confirming attempt result)
  | .confirming attempt result =>
      if builds.latest = some job.fingerprint then
        enter builds position job (.rechecking attempt result)
      else enter builds position job (.findingStale false)
  | .rechecking attempt result =>
      if builds.currentFingerprint = some job.fingerprint then
        match result with
        | .ok index => enter builds position job (.installing index)
        | .error _ =>
            if attempt < lexicalBuildAttempts then
              enter builds position job (.starting (attempt + 1))
            else enter builds position job .finishing
      else enter builds position job (.findingStale true)
  | .installing index =>
      enter (builds.install job.fingerprint index) position job .finishing
  | .findingStale finishes =>
      match builds.directory.snapshots[job.fingerprint]? with
      | some _ => enter builds position job (.removingStale finishes)
      | none => enter builds position job (afterRemoval finishes)
  | .removingStale finishes =>
      enter { builds with directory := builds.directory.removeSnapshot job.fingerprint }
        position job (afterRemoval finishes)
  | .finishing =>
      enter { builds with
          latest := if builds.latest = some job.fingerprint then none else builds.latest }
        position job .done
  | .done => builds

def taskStep (count : ℕ) : LexicalBuilds F S :=
  match builds.tasks[position]? with
  | some .scheduling =>
      match builds.store.runtime.bind CollectionRuntime.lexicalJob with
      | some job => builds.setTask position (.running job .registering)
      | none => builds.setTask position .dismissed
  | some (.running job phase) => runStep builds position job count phase
  | some .dismissed | none => builds

end Tasks

/-! ### Queries -/

section Queries

variable [Unicode] [LexicalArith] [ScoreArith S]

variable (builds : LexicalBuilds F S) (position : ℕ)

def setQuery (query : LexicalQueryRun S) : LexicalBuilds F S :=
  { builds with queries := builds.queries.set position query }

def lookupStep (query : LexicalQueryRun S) (prepared : PreparedQuery) (job : LexicalJob) :
    LookupPhase → LexicalBuilds F S
  | .cache =>
      match builds.cache[job.fingerprint]? with
      | some index => setQuery builds position (query.finish prepared (.ok (some index)))
      | none => setQuery builds position { query with phase := .searching prepared job .locate }
  | .locate =>
      match builds.directory.snapshots[job.fingerprint]? with
      | some _ => setQuery builds position { query with phase := .searching prepared job .open }
      | none => setQuery builds position (query.finish prepared (.ok none))
  | .open =>
      match builds.directory.snapshots[job.fingerprint]? with
      | some file =>
          setQuery builds position { query with phase := .searching prepared job (.read file) }
      | none => setQuery builds position (query.finish prepared (.error notFound))
  | .read file =>
      match job.readSnapshot (builds.directory.contents file) with
      | .error error => setQuery builds position (query.finish prepared (.error error))
      | .ok (.loaded index) =>
          setQuery builds position { query with phase := .searching prepared job (.install index) }
      | .ok .missing | .ok .stale => setQuery builds position (query.finish prepared (.ok none))
  | .install index =>
      setQuery (builds.install job.fingerprint index) position (query.finish prepared (.ok (some index)))

def queryStep : LexicalBuilds F S :=
  match builds.queries[position]? with
  | some query =>
      match query.phase with
      | .searching prepared job phase => lookupStep builds position query prepared job phase
      | .answered _ => builds
  | none => builds

end Queries

/-! ### Steps -/

inductive Event where
  | write (lockedSection : LockedSection) (faults : List Fault)
  /-- The start of a schema update, before it takes the lock. -/
  | cancel
  | drain
  | schedule
  | task (position count : ℕ)
  | query (request : QueryV1Request) (control : QueryControl)
  | lookup (position : ℕ)

section Steps

variable [Unicode] [LexicalArith] [ScoreArith S] (state : AppState F)

/-- A locked section that crashes takes the whole process with it, so it is no step.
A schema update that succeeds empties the cache. -/
def writeStep (builds : LexicalBuilds F S) (lockedSection : LockedSection) (faults : List Fault) :
    LexicalBuilds F S :=
  match (WriteService.lockedSection state S lockedSection).run builds.store faults with
  | (.ok (), world) => { builds with
      store := world.state
      cache := match lockedSection with
        | .updateLexicalSchema _ _ => ∅
        | _ => builds.cache }
  | (.error _, world) => { builds with store := world.state }
  | (.crashed, _) => builds

def step (builds : LexicalBuilds F S) : Event → LexicalBuilds F S
  | .write lockedSection faults =>
      if builds.unlocked then writeStep state builds lockedSection faults else builds
  | .cancel => { builds with latest := none }
  | .drain => { builds with draining := true }
  | .schedule =>
      if builds.draining then builds else { builds with tasks := builds.tasks ++ [.scheduling] }
  | .task position count => taskStep builds position count
  | .query request control =>
      match builds.store.runtime with
      | some runtime =>
          if request.collectionId = state.collectionId then
            { builds with queries := builds.queries ++ [.start runtime request control] }
          else builds
      | none => builds
  | .lookup position => queryStep builds position

/-- A server that just opened the collection: recovery has restored or built the index. -/
def opened (store : Store F) (runtime : CollectionRuntime) (files : LexicalIndexStore) :
    LexicalBuilds F S where
  store := store
  cache := (recoverLexical runtime files).1.lexicalIndexes
  latest := none
  draining := false
  directory := .ofStore (recoverLexical runtime files).2
  tasks := []
  queries := []

end Steps

end LexicalBuilds

end Ketebe
