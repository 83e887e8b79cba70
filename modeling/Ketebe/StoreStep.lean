import Ketebe.WriteService

/-!
The steps of a store. Whatever faults the server meets, it moves the store only
by the atomic steps listed here, and a step other than an append leaves the
logged mutations as they are. Invariants are proved about the steps.
-/
namespace Ketebe

open Lib.ByteCodec Lib.Durable Lib.Durable.Program

/-- The directory that remains when the process stops. -/
def Store.down {F : Type} (store : Store F) : Store F := { store with runtime := none }

/-- The mutation was checked against the configuration before it was numbered. -/
def PendingMutation.Accepted (id : CollectionId) (config : CollectionConfig) :
    PendingMutation → Prop
  | .upsert collectionId _ vector _ => collectionId = id ∧ config.validateVector vector = .ok ()
  | .delete collectionId _ => collectionId = id

namespace StoreStep

open WriteService AppState

section Guards

variable {F : Type} (state : AppState F) (store : Store F)

/-- A numbered batch that the open log takes. -/
structure Appends (config : CollectionConfig) (runtime : CollectionRuntime)
    (mutations : List WalMutation) (next : SequenceNumber) (log : Wal) : Prop where
  running : store.runtime = some runtime
  writable : runtime.config = some config
  batch : ∃ batch, (∀ pending ∈ batch, pending.Accepted state.collectionId config) ∧
    numberFrom runtime.nextSequence batch = (mutations, next)
  log : encodeAppend runtime store.dir mutations = .ok log

/-- The segment was published last, under the next id at that time. -/
def PublishedLast (segment : Segment) : Prop :=
  ∃ earlier : SegmentStore, earlier.nextSegmentId = some segment.id ∧
    store.dir.segments = earlier.publish segment

/-- The mutable list as a new segment. -/
structure Seals (runtime : CollectionRuntime) (segment : Segment) : Prop where
  running : store.runtime = some runtime
  segment : Segment.fromMutations segment.id runtime.mutable = .ok segment

/-- The live segments as one new segment. -/
structure Compacts (runtime : CollectionRuntime) (replacement : Segment) : Prop where
  running : store.runtime = some runtime
  several : 2 ≤ runtime.segments.length
  sealed : runtime.mutable = []
  replacement : compactSegments replacement.id runtime.segments = .ok replacement

/-- The runtime's checkpoint is the one on disk. -/
structure Checkpointed (runtime : CollectionRuntime) (checkpoint : Checkpoint) : Prop where
  running : store.runtime = some runtime
  current : runtime.checkpoint = some checkpoint
  stored : store.dir.checkpoint = some checkpoint

/-- What opening the log finds on disk. -/
structure Opened (log : Wal) (replay : Wal.ReplayResult) : Prop where
  opens : Wal.openWithPolicy store.dir.wal .durable = .ok log
  replays : log.replay = .ok replay

/-- What recovery is about to index, or what the runtime holds. -/
inductive Indexable (checkpoint : Checkpoint) (metric : DistanceMetric)
    (segments : List Segment) : Prop
  | running (runtime : CollectionRuntime) (hruntime : Checkpointed store runtime checkpoint)
      (hmetric : runtime.metric = metric) (hsegments : runtime.segments = segments)
  | recovering (hcheckpoint : store.dir.checkpoint = some checkpoint)
      (hmetric : store.dir.config.distanceMetric = metric)
      (hsegments : liveSegments store.dir = .ok segments)

end Guards

section Steps

variable {F : Type} [DecidableEq F] (S : Type) [ScoreArith S] (state : AppState F)

/-- A runtime as recovery finds it on disk. -/
structure Recovers (store : Store F) (runtime : CollectionRuntime) : Prop where
  segments : liveSegments store.dir = .ok runtime.segments
  log : ∃ log replay, Opened store log replay ∧
    runtime.wal = some ⟨log.syncPolicy, log.lastSequence⟩ ∧
      unsealed store.dir.config ((store.dir.checkpoint.map Checkpoint.sequenceNumber).getD 0)
        replay.entries = .ok runtime.mutable
  writable : runtime = { CollectionRuntime.writable state.scope store.dir.config runtime.segments
    runtime.mutable runtime.wal store.dir.checkpoint with hnsw := runtime.hnsw }
  index : ∀ index, runtime.hnsw = some index → ∃ checkpoint,
    store.dir.checkpoint = some checkpoint ∧
      (buildHnsw S checkpoint runtime.metric runtime.segments = .ok index ∨
        DecodedSnapshot.load S state.fingerprint ⟨checkpoint, runtime.metric, .default⟩
          store.dir.hnsw = .ok (.loaded index))

/-- One atomic step, with the mutations that it adds to the log. -/
inductive Step : Store F → List WalMutation → Store F → Prop
  | stop (store : Store F) : Step store [] store.down
  | append {store : Store F} {config : CollectionConfig} {runtime : CollectionRuntime}
      {mutations : List WalMutation} {next : SequenceNumber} {log : Wal}
      (h : Appends state store config runtime mutations next log) :
      Step store mutations
        ((store.updateDir fun dir => { dir with wal := some log.file }).updateRuntime
          fun runtime => { runtime with
            mutable := runtime.mutable ++ mutations
            wal := some ⟨log.syncPolicy, log.lastSequence⟩
            nextSequence := next })
  | appendThenStop {store : Store F} {config : CollectionConfig} {runtime : CollectionRuntime}
      {mutations : List WalMutation} {next : SequenceNumber} {log : Wal}
      (h : Appends state store config runtime mutations next log) :
      Step store mutations (store.updateDir fun dir => { dir with wal := some log.file }).down
  | sealSegment {store : Store F} {runtime : CollectionRuntime} {segment : Segment}
      (h : Seals store runtime segment)
      (hid : store.dir.segments.nextSegmentId = some segment.id) :
      Step store []
        (store.updateDir fun dir => { dir with segments := dir.segments.publish segment })
  | sealCheckpoint {store : Store F} {runtime : CollectionRuntime} {segment : Segment}
      (h : Seals store runtime segment) (hlast : PublishedLast store segment) :
      Step store [] (store.updateDir fun dir =>
        { dir with checkpoint := some (sealedCheckpoint state runtime segment) })
  | sealRuntime {store : Store F} {runtime : CollectionRuntime} {segment : Segment}
      (h : Seals store runtime segment) (hlast : PublishedLast store segment)
      (hstored : store.dir.checkpoint = some (sealedCheckpoint state runtime segment)) :
      Step store [] (store.updateRuntime fun _ =>
        sealedRuntime runtime segment (sealedCheckpoint state runtime segment))
  | compactSegment {store : Store F} {runtime : CollectionRuntime} {replacement : Segment}
      (h : Compacts store runtime replacement)
      (hid : store.dir.segments.nextSegmentId = some replacement.id) :
      Step store []
        (store.updateDir fun dir => { dir with segments := dir.segments.publish replacement })
  | compactCheckpoint {store : Store F} {runtime : CollectionRuntime} {replacement : Segment}
      (h : Compacts store runtime replacement) (hlast : PublishedLast store replacement) :
      Step store [] (store.updateDir fun dir =>
        { dir with checkpoint := some (compactedCheckpoint state runtime replacement) })
  | compactRuntime {store : Store F} {runtime : CollectionRuntime} {replacement : Segment}
      (h : Compacts store runtime replacement) (hlast : PublishedLast store replacement)
      (hstored : store.dir.checkpoint = some (compactedCheckpoint state runtime replacement)) :
      Step store [] (store.updateRuntime fun _ =>
        compactedRuntime runtime replacement (compactedCheckpoint state runtime replacement))
  | collect {store : Store F} {runtime : CollectionRuntime} {checkpoint : Checkpoint}
      {id : SegmentId} (h : Checkpointed store runtime checkpoint) (hid : id ∉ checkpoint.segments)
      (hkept : ∃ kept ∈ store.dir.segments.files, id < kept.id ∧ kept.id ∈ checkpoint.segments) :
      Step store []
        (store.updateDir fun dir => { dir with segments := dir.segments.deleteSegment id })
  | closeWal (store : Store F) :
      Step store [] (store.updateRuntime fun runtime => { runtime with wal := none })
  | reclaimWal {store : Store F} {runtime : CollectionRuntime} {checkpoint : Checkpoint}
      (h : Checkpointed store runtime checkpoint) (hsealed : runtime.mutable = [])
      (hclosed : runtime.wal = none) :
      Step store [] (store.updateDir fun dir => { dir with wal := some [] })
  | createWal {store : Store F} {log : Wal}
      (h : Wal.openWithPolicy store.dir.wal .durable = .ok log) :
      Step store [] (store.updateDir fun dir => { dir with wal := some log.file })
  | openWal {store : Store F} {log : Wal}
      (h : Wal.openWithPolicy store.dir.wal .durable = .ok log) :
      Step store [] (store.updateRuntime fun runtime =>
        { runtime with wal := some ⟨log.syncPolicy, log.lastSequence⟩ })
  | publishHnsw {store : Store F} {checkpoint : Checkpoint} {metric : DistanceMetric}
      {segments : List Segment} {index : HnswIndex}
      (h : Indexable store checkpoint metric segments)
      (hindex : buildHnsw S checkpoint metric segments = .ok index) :
      Step store [] (store.updateDir fun dir => { dir with
        hnsw := some (.native (state.fingerprint ⟨checkpoint, metric, .default⟩) index) })
  | setHnsw {store : Store F} {runtime : CollectionRuntime} {checkpoint : Checkpoint}
      {hnsw : Option HnswIndex} (h : Checkpointed store runtime checkpoint)
      (hindex : ∀ index, hnsw = some index →
        buildHnsw S checkpoint runtime.metric runtime.segments = .ok index) :
      Step store [] (store.updateRuntime fun runtime => { runtime with hnsw := hnsw })
  | recover {store : Store F} {runtime : CollectionRuntime} (h : Recovers S state store runtime) :
      Step store [] { store with runtime := some runtime }

/-- Several steps, with all the mutations that they add. -/
inductive Steps : Store F → List WalMutation → Store F → Prop
  | refl (store : Store F) : Steps store [] store
  | tail {first middle last : Store F} {logged mutations : List WalMutation}
      (hsteps : Steps first logged middle) (hstep : Step S state middle mutations last) :
      Steps first (logged ++ mutations) last

end Steps

end StoreStep

end Ketebe
