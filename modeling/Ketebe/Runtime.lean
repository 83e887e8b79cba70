import Ketebe.HnswSnapshot
import Ketebe.Lib.Durable
import Ketebe.WalFailures

/-!
The runtime of one collection and its recovery from the collection directory.
The directory outlives a crash, the runtime does not. Its files are kept
decoded, except for the log; every access to one is a step that may fail.
-/
namespace Ketebe

open Lib.ByteCodec Lib.Durable Lib.Durable.Program

/-- The writer of the log; the file itself belongs to the directory. -/
structure WalWriter where
  syncPolicy : SyncPolicy
  lastSequence : Option SequenceNumber

structure CollectionDir (F : Type) where
  config : CollectionConfig
  segments : SegmentStore
  checkpoint : Option Checkpoint
  wal : Option Bytes
  hnsw : Option (DecodedSnapshot F)

/-- The open log as appending and replaying see it. -/
def WalWriter.openLog {F : Type} (writer : WalWriter) (dir : CollectionDir F) : Wal :=
  ⟨dir.wal.getD [], writer.syncPolicy, writer.lastSequence⟩

structure CollectionRuntime where
  scope : Option DataPlaneScope
  metric : DistanceMetric
  config : Option CollectionConfig
  segments : List Segment
  mutable : List WalMutation
  hnsw : Option HnswIndex
  wal : Option WalWriter
  nextSequence : SequenceNumber
  checkpoint : Option Checkpoint

/-- One collection: its directory and, while the server runs, its runtime. -/
structure Store (F : Type) where
  dir : CollectionDir F
  runtime : Option CollectionRuntime

/-- What is fixed for a collection. -/
structure AppState (F : Type) where
  collectionId : CollectionId
  scope : Option DataPlaneScope
  sealThreshold : ℕ
  fingerprint : HnswIdentity → F

namespace CollectionRuntime

/-- The larger of all sequence numbers, 0 if there are none. -/
def maxOf (sequences : List SequenceNumber) : SequenceNumber := sequences.foldl max 0

def writable (scope : Option DataPlaneScope) (config : CollectionConfig) (segments : List Segment)
    (mutable : List WalMutation) (wal : Option WalWriter) (checkpoint : Option Checkpoint) :
    CollectionRuntime where
  scope := scope
  metric := config.distanceMetric
  config := some config
  segments := segments
  mutable := mutable
  hnsw := none
  wal := wal
  nextSequence :=
    (max (max (maxOf (segments.map Segment.maxSequence))
      (maxOf (mutable.map WalMutation.sequenceNumber)))
      ((checkpoint.map Checkpoint.sequenceNumber).getD 0)).saturatingSucc
  checkpoint := checkpoint

/-- The live segments and one for the mutations that are not sealed yet. -/
def querySegments (runtime : CollectionRuntime) : Except SegmentError (List Segment) :=
  if runtime.mutable = [] then .ok runtime.segments
  else do
    let segment ← Segment.fromMutations (UInt64.ofNat maxSequence) runtime.mutable
    pure (runtime.segments ++ [segment])

def queryHnsw (runtime : CollectionRuntime) : Option HnswIndex :=
  if runtime.mutable = [] then runtime.hnsw else none

end CollectionRuntime

/-- A failure on a file of the collection. -/
inductive ArtifactError where
  | namespace
  | wal (error : WalError)
  | segment (error : SegmentError)
  | checkpoint
  | compaction (error : CompactionError)
  | collectionMismatch (artifact expected actual : String)
  deriving DecidableEq, Repr

inductive RuntimeError where
  | io
  | artifact (error : ArtifactError)
  | invalidCollectionMetadata (message : String)
  deriving DecidableEq, Repr

namespace Store

variable {F : Type}

def updateDir (update : CollectionDir F → CollectionDir F) (store : Store F) : Store F :=
  { store with dir := update store.dir }

def updateRuntime (update : CollectionRuntime → CollectionRuntime) (store : Store F) : Store F :=
  { store with runtime := store.runtime.map update }

/-- A collection as it has just been created. -/
def created (state : AppState F) (config : CollectionConfig) : Store F where
  dir := ⟨config, ⟨[]⟩, none, some [], none⟩
  runtime := some (.writable state.scope config [] [] (some ⟨.durable, none⟩) none)

end Store

/-- A scope accepts only artifacts of its own collection. -/
def checkScope (scope : Option DataPlaneScope) (artifact : String) (actual : CollectionId) :
    Except ArtifactError Unit :=
  match scope with
  | none => .ok ()
  | some scope =>
      if scope.collectionId = actual then .ok ()
      else .error (.collectionMismatch artifact scope.collectionId.asStr actual.asStr)

def checkMutations (scope : Option DataPlaneScope) (mutations : List WalMutation) :
    Except ArtifactError Unit :=
  mutations.forM fun mutation => checkScope scope "WAL mutation" mutation.collectionId

namespace AppState

variable {F : Type}

/-- Opens the log, creating the file, and reads its entries. -/
def openWal (scope : Option DataPlaneScope) :
    Program (Store F) ArtifactError (WalWriter × List WalMutation) := do
  let store ← get
  let wal ← lift ((Wal.openWithPolicy store.dir.wal .durable).mapError .wal)
  durable (.wal .io) (Store.updateDir fun dir => { dir with wal := some wal.file })
  let replay ← lift (wal.replay.mapError .wal)
  lift (checkMutations scope replay.entries)
  pure (⟨wal.syncPolicy, wal.lastSequence⟩, replay.entries)

/-! ### The stored index -/

section Hnsw

variable (S : Type) [ScoreArith S] (state : AppState F)

def buildHnsw (checkpoint : Checkpoint) (metric : DistanceMetric) (segments : List Segment) :
    Except HnswSnapshotError HnswIndex :=
  (HnswIndex.build S segments checkpoint.collectionId metric .default).mapError .hnsw

def rebuildAndPublish (checkpoint : Checkpoint) (metric : DistanceMetric)
    (segments : List Segment) : Program (Store F) HnswSnapshotError HnswIndex := do
  attempt .io
  let index ← lift (buildHnsw S checkpoint metric segments)
  let snapshot := .native (state.fingerprint ⟨checkpoint, metric, .default⟩) index
  durable .io (Store.updateDir fun dir => { dir with hnsw := some snapshot })
  pure index

/-- Publishing is best effort: the index is built even if it cannot be stored. -/
def rebuildHnsw {ε : Type} (checkpoint : Checkpoint) (metric : DistanceMetric)
    (segments : List Segment) : Program (Store F) ε (Option HnswIndex) :=
  handle (do
    let index ← rebuildAndPublish S state checkpoint metric segments
    pure (some index))
  fun _ => pure (buildHnsw S checkpoint metric segments).toOption

variable [DecidableEq F]

def loadHnsw {ε : Type} (checkpoint : Checkpoint) (metric : DistanceMetric) :
    Program (Store F) ε HnswLoadResult :=
  handle (do
    attempt .io
    let store ← get
    lift (DecodedSnapshot.load S state.fingerprint ⟨checkpoint, metric, .default⟩ store.dir.hnsw))
  fun _ => pure .missing

def restoreOrRebuildHnsw {ε : Type} (checkpoint : Checkpoint) (metric : DistanceMetric)
    (segments : List Segment) : Program (Store F) ε (Option HnswIndex) := do
  let opened ← handle (do
    attempt HnswSnapshotError.io
    pure true) fun _ => pure false
  if opened then
    match ← loadHnsw S state checkpoint metric with
    | .loaded index => pure (some index)
    | .missing | .stale => rebuildHnsw S state checkpoint metric segments
  else pure none

end Hnsw

/-! ### Recovery -/

def openNamed (id : CollectionId) (segments : SegmentStore) (checkpoint : Checkpoint)
    (segmentId : SegmentId) : Except RuntimeError Segment := do
  let segment ← (segments.openSegment segmentId).mapError fun error => .artifact (.segment error)
  if segment.collectionId ≠ id then
    throw (.invalidCollectionMetadata
      "checkpoint references a segment from a different collection")
  else if checkpoint.sequenceNumber < segment.maxSequence then
    throw (.invalidCollectionMetadata "checkpoint sequence is older than a referenced segment")
  else pure segment

/-- The segments that the checkpoint names, or all of them without one. -/
def liveSegments (dir : CollectionDir F) : Except RuntimeError (List Segment) :=
  match dir.checkpoint with
  | some checkpoint =>
      if checkpoint.collectionId ≠ dir.config.id then
        .error (.invalidCollectionMetadata "checkpoint belongs to a different collection")
      else checkpoint.segments.mapM (openNamed dir.config.id dir.segments checkpoint)
  | none => .ok dir.segments.discover

/-- Checks a logged mutation that no checkpoint represents yet. -/
def checkMutation (config : CollectionConfig) : WalMutation → Except RuntimeError Unit
  | .upsert _ record =>
      (config.validateRecord record).mapError fun error => .invalidCollectionMetadata error.display
  | .delete .. => .ok ()

/-- The logged mutations after the checkpoint. -/
def unsealed (config : CollectionConfig) (checkpointSequence : SequenceNumber) :
    List WalMutation → Except RuntimeError (List WalMutation)
  | [] => .ok []
  | mutation :: rest => do
    if mutation.collectionId ≠ config.id then
      throw (.invalidCollectionMetadata "WAL mutation belongs to a different collection")
    else if mutation.sequenceNumber ≤ checkpointSequence then
      unsealed config checkpointSequence rest
    else do
      checkMutation config mutation
      let later ← unsealed config checkpointSequence rest
      pure (mutation :: later)

/-- The identity check of a scoped collection. -/
def checkIdentity (state : AppState F) (config : CollectionConfig) : Except RuntimeError Unit :=
  if state.scope.any fun scope => scope.collectionId ≠ config.id then
    .error (.invalidCollectionMetadata
      "storage namespace collection identity does not match collection metadata")
  else .ok ()

variable (S : Type) [ScoreArith S] [DecidableEq F] (state : AppState F)

/-- The runtime before the index is restored. -/
def recoverRuntime : Program (Store F) RuntimeError CollectionRuntime := do
  attempt .io
  let store ← get
  lift (checkIdentity state store.dir.config)
  let segments ← lift (liveSegments store.dir)
  let (writer, entries) ← mapError (openWal state.scope) .artifact
  let checkpointSequence := (store.dir.checkpoint.map Checkpoint.sequenceNumber).getD 0
  let mutable ← lift (unsealed store.dir.config checkpointSequence entries)
  pure (.writable state.scope store.dir.config segments mutable (some writer) store.dir.checkpoint)

/-- The index, which only a collection without unsealed mutations has. -/
def recoverHnsw (runtime : CollectionRuntime) :
    Program (Store F) RuntimeError (Option HnswIndex) :=
  match runtime.checkpoint with
  | some checkpoint =>
      if runtime.mutable = [] then
        restoreOrRebuildHnsw S state checkpoint runtime.metric runtime.segments
      else pure none
  | none => pure none

/-- Recovery of the collection; only a complete runtime is installed. -/
def recover : Program (Store F) RuntimeError Unit := do
  let runtime ← recoverRuntime state
  let hnsw ← recoverHnsw S state runtime
  modify fun store => { store with runtime := some { runtime with hnsw := hnsw } }

end AppState

end Ketebe
