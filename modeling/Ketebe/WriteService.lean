import Ketebe.Runtime

/-!
Writing to a collection. A batch is numbered, appended to the log and kept in
the mutable list; sealing turns that list into a segment, publishes it with a
checkpoint and empties the log; compaction folds all live segments into one.
-/
namespace Ketebe

open Lib.ByteCodec Lib.Durable Lib.Durable.Program

structure PendingRecord where
  id : RecordId
  vector : List F32
  metadata : Metadata

inductive WriteError where
  | collectionNotFound (collectionId : CollectionId)
  | collectionNotWritable
  | validation (message : String)
  | unscopedCollection
  | scope (error : ArtifactError)
  | artifact (error : ArtifactError)
  | walReclaim (error : WalError)
  | io (message : String)
  deriving DecidableEq

namespace WriteError

/-- Errors of a scoped store are scope failures. -/
def ofArtifact (scope : Option DataPlaneScope) (error : ArtifactError) : WriteError :=
  if scope.isSome then .scope error else .artifact error

def emptyBatch : WriteError := .validation "batch must contain at least one record"

end WriteError

namespace WriteService

variable {F : Type} (state : AppState F)

def currentRuntime : Program (Store F) WriteError CollectionRuntime := do
  let store ← get
  match store.runtime with
  | some runtime => pure runtime
  | none => throw (.collectionNotFound state.collectionId)

def updateRuntime (update : CollectionRuntime → CollectionRuntime) :
    Program (Store F) WriteError Unit :=
  modify (Store.updateRuntime update)

/-! ### Appending -/

def validatePending (config : CollectionConfig) (pending : PendingRecord) :
    Except DomainError Vector := do
  let vector ← Vector.new pending.vector
  config.validateVector vector
  pure vector

/-- The mutations of a batch, all of which must be valid. -/
def prepareBatch (config : CollectionConfig) (records : List PendingRecord) :
    Except WriteError (List PendingMutation) :=
  records.mapM fun pending => do
    let vector ← (validatePending config pending).mapError fun error => .validation error.display
    pure (.upsert state.collectionId pending.id vector pending.metadata)

/-- What the log does with a batch, up to the write itself. -/
def encodeAppend (runtime : CollectionRuntime) (dir : CollectionDir F)
    (mutations : List WalMutation) : Except WriteError Wal :=
  match runtime.wal with
  | none => .error .collectionNotWritable
  | some writer => do
    (checkMutations runtime.scope mutations).mapError (WriteError.ofArtifact runtime.scope)
    match (writer.openLog dir).appendBatch mutations .done with
    | (log, .ok ()) => pure log
    | (_, .error error) => throw (.ofArtifact runtime.scope (.wal error))

/-- Appends numbered mutations to the log and then to the mutable list. -/
def appendMutations (runtime : CollectionRuntime) (mutations : List WalMutation)
    (next : SequenceNumber) : Program (Store F) WriteError Unit := do
  let store ← get
  let log ← lift (encodeAppend runtime store.dir mutations)
  durableAtomic (.ofArtifact runtime.scope (.wal .io))
    (Store.updateDir fun dir => { dir with wal := some log.file })
  updateRuntime fun runtime => { runtime with
    mutable := runtime.mutable ++ mutations
    wal := some ⟨log.syncPolicy, log.lastSequence⟩
    nextSequence := next }

/-! ### Sealing -/

section Sealing

/-- A scoped store holds segments of its own collection only. -/
def checkDiscovered (runtime : CollectionRuntime) : Program (Store F) WriteError Unit := do
  let store ← get
  lift ((store.dir.segments.discover.forM fun segment =>
    checkScope runtime.scope "segment" segment.collectionId).mapError
      (WriteError.ofArtifact runtime.scope))

/-- Opens the stores and takes the next segment id. -/
def allocateSegmentId (runtime : CollectionRuntime) : Program (Store F) WriteError SegmentId := do
  if runtime.scope.isNone && state.collectionId.asStr.startsWith "c_" then throw .unscopedCollection
  else do
    attempt (.ofArtifact runtime.scope .namespace)
    checkDiscovered runtime
    let store ← get
    match store.dir.segments.nextSegmentId with
    | some id => pure id
    | none => throw (.io "segment ID space exhausted")

def publishSegment (runtime : CollectionRuntime) (segment : Segment) :
    Program (Store F) WriteError Unit := do
  lift ((checkScope runtime.scope "segment" segment.collectionId).mapError
    (WriteError.ofArtifact runtime.scope))
  let store ← get
  if store.dir.segments.exists segment.id then
    throw (.ofArtifact runtime.scope (.segment .alreadyExists))
  else
    durable (.ofArtifact runtime.scope (.segment .io))
      (Store.updateDir fun dir => { dir with segments := dir.segments.publish segment })

def publishCheckpoint (runtime : CollectionRuntime) (checkpoint : Checkpoint) :
    Program (Store F) WriteError Unit := do
  let store ← get
  lift ((store.dir.checkpoint.toList.forM fun current =>
    checkScope runtime.scope "checkpoint" current.collectionId).mapError
      (WriteError.ofArtifact runtime.scope))
  lift ((checkScope runtime.scope "checkpoint" checkpoint.collectionId).mapError
    (WriteError.ofArtifact runtime.scope))
  durable (.ofArtifact runtime.scope .checkpoint)
    (Store.updateDir fun dir => { dir with checkpoint := some checkpoint })

/-- The log file that holds the retained mutations and nothing else. -/
def reclaimedLog (retained : List WalMutation) : Except WalError Wal :=
  (Wal.fresh .durable).appendAll (retained.map fun mutation => [mutation])

def reopenWal (runtime : CollectionRuntime) : Program (Store F) WriteError Unit := do
  let (writer, _) ← mapError (AppState.openWal runtime.scope) (WriteError.ofArtifact runtime.scope)
  updateRuntime fun runtime => { runtime with wal := some writer }

/-- Writes the retained mutations aside and renames them over the log. -/
def replaceWal (retained : List WalMutation) : Program (Store F) WriteError Unit := do
  let log ← lift ((reclaimedLog retained).mapError .walReclaim)
  durable (.walReclaim .io) (Store.updateDir fun dir => { dir with wal := some log.file })

/-- After a failed replacement the log is opened again if that is possible. -/
def keepWal (runtime : CollectionRuntime) (error : WriteError) :
    Program (Store F) WriteError Unit := do
  handle (reopenWal runtime) fun (_ : WriteError) => pure ()
  throw error

def reclaimWal (runtime : CollectionRuntime) : Program (Store F) WriteError Unit := do
  if runtime.wal.isNone then throw .collectionNotWritable
  else do
    updateRuntime fun runtime => { runtime with wal := none }
    handle (replaceWal runtime.mutable) (keepWal runtime)
    reopenWal runtime

/-- The segment ids of the next checkpoint. -/
def liveIds (runtime : CollectionRuntime) : List SegmentId :=
  match runtime.checkpoint with
  | some checkpoint => checkpoint.segments
  | none => runtime.segments.map Segment.id

def sealedCheckpoint (runtime : CollectionRuntime) (segment : Segment) : Checkpoint :=
  .new state.collectionId (liveIds runtime ++ [segment.id]) segment.maxSequence

def sealedRuntime (runtime : CollectionRuntime) (segment : Segment) (checkpoint : Checkpoint) :
    CollectionRuntime :=
  { runtime with
    segments := runtime.segments ++ [segment]
    mutable := []
    hnsw := none
    checkpoint := some checkpoint }

variable (S : Type) [ScoreArith S]

/-- Builds the index of the runtime's checkpoint and keeps it if that works. -/
def refreshHnsw (runtime : CollectionRuntime) (checkpoint : Checkpoint) :
    Program (Store F) WriteError Unit := do
  let hnsw ← AppState.rebuildHnsw S state checkpoint runtime.metric runtime.segments
  updateRuntime fun runtime => { runtime with hnsw := hnsw }

/-- Seals the mutable list, which is not empty. -/
def sealMutable (runtime : CollectionRuntime) : Program (Store F) WriteError Checkpoint := do
  let id ← allocateSegmentId state runtime
  let segment ← lift ((Segment.fromMutations id runtime.mutable).mapError fun error =>
    .artifact (.segment error))
  publishSegment runtime segment
  let checkpoint := sealedCheckpoint state runtime segment
  publishCheckpoint runtime checkpoint
  let updated := sealedRuntime runtime segment checkpoint
  updateRuntime fun _ => updated
  reclaimWal updated
  refreshHnsw state S updated checkpoint
  pure checkpoint

def sealCollection : Program (Store F) WriteError (Option Checkpoint) := do
  let runtime ← currentRuntime state
  if runtime.config.isNone then throw .collectionNotWritable
  else if runtime.mutable = [] then pure none
  else do
    let checkpoint ← sealMutable state S runtime
    pure (some checkpoint)

end Sealing

/-! ### Writing -/

section Writing

variable (S : Type) [ScoreArith S]

def sealIfFull : Program (Store F) WriteError Unit := do
  let runtime ← currentRuntime state
  if state.sealThreshold ≤ runtime.mutable.length then do
    let _ ← sealCollection state S
  else pure ()

/-- Numbers a batch, appends it and seals when the mutable list is full. -/
def write (runtime : CollectionRuntime) (batch : List PendingMutation) :
    Program (Store F) WriteError (List SequenceNumber) := do
  let (mutations, next) := numberFrom runtime.nextSequence batch
  appendMutations runtime mutations next
  sealIfFull state S
  pure (mutations.map WalMutation.sequenceNumber)

/-- The batch of an upsert, before it is numbered. -/
def upsertMutations (runtime : CollectionRuntime) (records : List PendingRecord) :
    Except WriteError (List PendingMutation) :=
  match runtime.config with
  | none => .error .collectionNotWritable
  | some config => prepareBatch state config records

def upsertBatch (records : List PendingRecord) :
    Program (Store F) WriteError (List SequenceNumber) := do
  if records = [] then throw .emptyBatch
  else do
    let runtime ← currentRuntime state
    let batch ← lift (upsertMutations state runtime records)
    write state S runtime batch

def delete (recordId : RecordId) : Program (Store F) WriteError SequenceNumber := do
  let runtime ← currentRuntime state
  if runtime.config.isNone then throw .collectionNotWritable
  else do
    let _ ← write state S runtime [.delete state.collectionId recordId]
    pure runtime.nextSequence

end Writing

/-! ### Compaction -/

section Compaction

/-- The last sequence number that the compacted segments represent. -/
def representedSequence (runtime : CollectionRuntime) : SequenceNumber :=
  match runtime.checkpoint with
  | some checkpoint => checkpoint.sequenceNumber
  | none => CollectionRuntime.maxOf (runtime.segments.map Segment.maxSequence)

def garbageCollect (runtime : CollectionRuntime) (retained : List SegmentId) :
    Program (Store F) WriteError Unit := do
  checkDiscovered runtime
  let store ← get
  forEach (fun id =>
    if id ∈ retained then pure ()
    else durable (.ofArtifact runtime.scope (.compaction (.segment .io)))
      (Store.updateDir fun dir => { dir with segments := dir.segments.deleteSegment id }))
    store.dir.segments.listSegmentIds

def compactedCheckpoint (runtime : CollectionRuntime) (replacement : Segment) : Checkpoint :=
  .new state.collectionId [replacement.id] (representedSequence runtime)

def compactedRuntime (runtime : CollectionRuntime) (replacement : Segment)
    (checkpoint : Checkpoint) : CollectionRuntime :=
  { runtime with segments := [replacement], hnsw := none, checkpoint := some checkpoint }

variable (S : Type) [ScoreArith S]

/-- Compacts under the catalog lock. -/
def compactLocked (runtime : CollectionRuntime) : Program (Store F) WriteError Checkpoint := do
  let id ← allocateSegmentId state runtime
  lift ((runtime.segments.forM fun segment =>
    checkScope runtime.scope "maintenance" segment.collectionId).mapError
      (WriteError.ofArtifact runtime.scope))
  let replacement ← lift ((compactSegments id runtime.segments).mapError fun error =>
    .ofArtifact runtime.scope (.compaction error))
  publishSegment runtime replacement
  let checkpoint := compactedCheckpoint state runtime replacement
  publishCheckpoint runtime checkpoint
  let updated := compactedRuntime runtime replacement checkpoint
  updateRuntime fun _ => updated
  garbageCollect runtime checkpoint.segments
  refreshHnsw state S updated checkpoint
  pure checkpoint

/-- Seals what is not sealed yet. -/
def sealBeforeCompaction : Program (Store F) WriteError Unit := do
  let runtime ← currentRuntime state
  if runtime.config.isNone then throw .collectionNotWritable
  else if runtime.mutable = [] then pure ()
  else do
    let _ ← sealCollection state S

/-- Compacts if there still are several segments. -/
def compactAdmitted : Program (Store F) WriteError (Option Checkpoint) := do
  let runtime ← currentRuntime state
  if runtime.segments.length < 2 then pure none
  else do
    let checkpoint ← compactLocked state S runtime
    pure (some checkpoint)

def compactCollection : Program (Store F) WriteError (Option Checkpoint) := do
  sealBeforeCompaction state S
  let runtime ← currentRuntime state
  if runtime.segments.length < 2 then pure none
  else do
    attempt (.io "compaction resource admission failed")
    compactAdmitted state S

end Compaction

end WriteService

end Ketebe
