import Ketebe.AcknowledgedWrites
import Ketebe.FloatScores

/-!
The dense index of a collection is derived data: it is built from a checkpoint's segments, stored
with a fingerprint of the checkpoint and trusted under the same fingerprint later. As long as
fingerprints do not collide, the index that queries use is in every state the one that building
it from what readers see would give.
-/
namespace Ketebe

open Lib Lib.ByteCodec Lib.Durable Lib.LatestVersion

open Segment (writes)

namespace HnswIndex

variable {S : Type} [ScoreArith S] {id : CollectionId} {metric : DistanceMetric}

variable (S id metric) in
/-- The index was built from the history up to the checkpoint. -/
structure Indexes (history : List WalMutation) (checkpoint : Checkpoint) (index : HnswIndex) :
    Prop where
  ended : checkpoint.sequenceNumber.toNat ≤ history.length
  built : ∃ segments,
    LatestVersion.Covers (writes (upTo checkpoint.sequenceNumber history))
        (versionsIn segments id) ∧
      build S segments id metric .default = .ok index

theorem Indexes.append {history mutations : List WalMutation} {checkpoint : Checkpoint}
    {index : HnswIndex} (h : Indexes S id metric history checkpoint index)
    (hlater : ∀ mutation ∈ mutations, history.length < mutation.sequenceNumber.toNat) :
    Indexes S id metric (history ++ mutations) checkpoint index := by
  obtain ⟨hended, hbuilt⟩ := h
  have hsame : upTo checkpoint.sequenceNumber (history ++ mutations) =
      upTo checkpoint.sequenceNumber history := upTo_append fun mutation hmutation =>
    UInt64.lt_iff_toNat_lt.mpr (hended.trans_lt (hlater mutation hmutation))
  refine ⟨?_, ?_⟩
  · rw [List.length_append]
    exact hended.trans (Nat.le_add_right ..)
  · rwa [hsame]

end HnswIndex

/-- The index of the runtime stands for its checkpoint. -/
def CollectionRuntime.Indexed (S : Type) [ScoreArith S] (id : CollectionId)
    (history : List WalMutation) (runtime : CollectionRuntime) : Prop :=
  ∀ index, runtime.hnsw = some index → ∃ checkpoint, runtime.checkpoint = some checkpoint ∧
    HnswIndex.Indexes S id runtime.metric history checkpoint index

namespace StoreStep

open HnswIndex

variable {F : Type} {state : AppState F} {store next : Store F} {history : List WalMutation}

/-- The segments that the checkpoint names stand for the history up to it. -/
theorem Kept.covers_named (h : Kept state store history) {checkpoint : Checkpoint}
    {segments : List Segment} (hcheckpoint : store.dir.checkpoint = some checkpoint)
    (hsegments : ∀ segment ∈ segments, segment ∈ store.dir.segments.files)
    (hnamed : ∀ segmentId, segmentId ∈ checkpoint.segments ↔
      ∃ segment ∈ segments, segment.id = segmentId) :
    LatestVersion.Covers (writes (upTo checkpoint.sequenceNumber history))
      (versionsIn segments state.collectionId) := by
  obtain ⟨replay, hsound⟩ := h.sound
  rw [versionsIn_of_collection fun segment hsegment =>
    (hsound.numbered.files segment (hsegments segment hsegment)).collection]
  exact (h.checkpoint checkpoint hcheckpoint).covers.congr fun v =>
    (mem_versions hsound hsegments hnamed v).symm

section Index

variable {S : Type} [ScoreArith S] {checkpoint : Checkpoint} {metric : DistanceMetric}
  {segments : List Segment} {index : HnswIndex}

theorem Kept.indexes_built (h : Kept state store history)
    (hcheckpoint : store.dir.checkpoint = some checkpoint)
    (hcovers : LatestVersion.Covers (writes (upTo checkpoint.sequenceNumber history))
      (versionsIn segments state.collectionId))
    (hbuilt : AppState.buildHnsw S checkpoint metric segments = .ok index) :
    Indexes S state.collectionId metric history checkpoint index := by
  obtain ⟨replay, hsound⟩ := h.sound
  have hbuild := mapError_ok_iff.mp hbuilt
  rw [(hsound.checkpoint checkpoint hcheckpoint).collection] at hbuild
  exact ⟨(h.checkpoint checkpoint hcheckpoint).ended, segments, hcovers, hbuild⟩

theorem Kept.covers_checkpointed (h : Kept state store history) {runtime : CollectionRuntime}
    (hcheckpointed : Checkpointed store runtime checkpoint) :
    LatestVersion.Covers (writes (upTo checkpoint.sequenceNumber history))
      (versionsIn runtime.segments state.collectionId) := by
  obtain ⟨replay, hsound⟩ := h.sound
  have hbacked := hsound.runtime runtime hcheckpointed.running
  exact h.covers_named hcheckpointed.stored hbacked.segments
    (hbacked.named checkpoint hcheckpointed.current)

theorem Kept.covers_live (h : Kept state store history)
    (hcheckpoint : store.dir.checkpoint = some checkpoint)
    (hlive : AppState.liveSegments store.dir = .ok segments) :
    LatestVersion.Covers (writes (upTo checkpoint.sequenceNumber history))
      (versionsIn segments state.collectionId) :=
  h.covers_named hcheckpoint (mem_of_liveSegments hlive)
    (Sound.liveSegments_named hlive hcheckpoint).1

theorem Kept.indexes_indexable (h : Kept state store history)
    (hindexable : Indexable store checkpoint metric segments)
    (hbuilt : AppState.buildHnsw S checkpoint metric segments = .ok index) :
    Indexes S state.collectionId metric history checkpoint index := by
  cases hindexable with
  | running runtime hcheckpointed _ hsegments =>
    subst hsegments
    exact h.indexes_built hcheckpointed.stored (h.covers_checkpointed hcheckpointed) hbuilt
  | recovering hcheckpoint _ hlive =>
    exact h.indexes_built hcheckpoint (h.covers_live hcheckpoint hlive) hbuilt

end Index

/-! ### The invariant -/

section Indexed

/-- What is stored and what is in use was built from the checkpoint it is kept for. -/
structure Indexed (S : Type) [ScoreArith S] (state : AppState F) (store : Store F)
    (history : List WalMutation) : Prop where
  stored : ∀ snapshot, store.dir.hnsw = some snapshot → ∃ checkpoint metric index,
    snapshot = .native (state.fingerprint ⟨checkpoint, metric, .default⟩) index ∧
      Indexes S state.collectionId metric history checkpoint index
  running : ∀ runtime, store.runtime = some runtime →
    runtime.Indexed S state.collectionId history

namespace Indexed

variable {S : Type} [ScoreArith S]

theorem created {config : CollectionConfig} : Indexed S state (.created state config) [] := by
  refine ⟨fun _ h => (by cases h), fun runtime hruntime index hindex => ?_⟩
  cases hruntime
  cases hindex

theorem append {mutations : List WalMutation} (h : Indexed S state store history)
    (hlater : ∀ mutation ∈ mutations, history.length < mutation.sequenceNumber.toNat) :
    Indexed S state store (history ++ mutations) := by
  refine ⟨fun snapshot hsnapshot => ?_, fun runtime hruntime index hindex => ?_⟩
  · obtain ⟨checkpoint, metric, index, hsame, hindexes⟩ := h.stored snapshot hsnapshot
    exact ⟨checkpoint, metric, index, hsame, hindexes.append hlater⟩
  · obtain ⟨checkpoint, hcheckpoint, hindexes⟩ := h.running runtime hruntime index hindex
    exact ⟨checkpoint, hcheckpoint, hindexes.append hlater⟩

/-- The stored index is not touched. -/
theorem keep (h : Indexed S state store history) (hdir : next.dir.hnsw = store.dir.hnsw)
    (hruntime : ∀ runtime, next.runtime = some runtime →
      runtime.Indexed S state.collectionId history) : Indexed S state next history :=
  ⟨fun snapshot hsnapshot => h.stored snapshot (hdir.symm.trans hsnapshot), hruntime⟩

theorem dir (h : Indexed S state store history) {update : CollectionDir F → CollectionDir F}
    (hhnsw : (update store.dir).hnsw = store.dir.hnsw) :
    Indexed S state (store.updateDir update) history := h.keep hhnsw h.running

theorem update (h : Indexed S state store history)
    {update : CollectionRuntime → CollectionRuntime} (hupdate : ∀ runtime,
      store.runtime = some runtime → (update runtime).Indexed S state.collectionId history) :
    Indexed S state (store.updateRuntime update) history := by
  refine h.keep rfl fun runtime hruntime => ?_
  obtain ⟨before, hbefore, rfl⟩ := Option.map_eq_some_iff.mp hruntime
  exact hupdate before hbefore

theorem down (h : Indexed S state store history) : Indexed S state store.down history :=
  h.keep rfl fun _ hruntime => (by cases hruntime)

variable [DecidableEq F]

/-- A stored index is loaded for the checkpoint that it was built from. -/
theorem loaded (h : Indexed S state store history)
    (hfingerprint : Function.Injective state.fingerprint) {checkpoint : Checkpoint}
    {metric : DistanceMetric} {index : HnswIndex}
    (hload : DecodedSnapshot.load S state.fingerprint ⟨checkpoint, metric, .default⟩
      store.dir.hnsw = .ok (.loaded index)) :
    Indexes S state.collectionId metric history checkpoint index := by
  cases hsnapshot : store.dir.hnsw with
  | none =>
    rw [hsnapshot] at hload
    cases hload
  | some snapshot =>
    rw [hsnapshot] at hload
    obtain ⟨stored, storedMetric, graph, rfl, hindexes⟩ := h.stored snapshot hsnapshot
    obtain ⟨rfl, hsame⟩ := DecodedSnapshot.load_native hload
    cases hfingerprint hsame
    exact hindexes

theorem recovered (h : Indexed S state store history) (hkept : Kept state store history)
    (hfingerprint : Function.Injective state.fingerprint) {runtime : CollectionRuntime}
    (hrecovers : Recovers S state store runtime) :
    runtime.Indexed S state.collectionId history := by
  intro index hindex
  obtain ⟨checkpoint, hcheckpoint, hbuilt | hload⟩ := hrecovers.index index hindex
  · refine ⟨checkpoint, ?_, hkept.indexes_built hcheckpoint
      (hkept.covers_live hcheckpoint hrecovers.segments) hbuilt⟩
    rw [← hcheckpoint]
    exact congrArg CollectionRuntime.checkpoint hrecovers.writable
  · refine ⟨checkpoint, ?_, h.loaded hfingerprint hload⟩
    rw [← hcheckpoint]
    exact congrArg CollectionRuntime.checkpoint hrecovers.writable

variable {logged : List WalMutation}

theorem step (h : Indexed S state store history) (hkept : Kept state store history)
    (hfingerprint : Function.Injective state.fingerprint)
    (hstep : Step S state store logged next) : Indexed S state next (history ++ logged) := by
  cases hstep with
  | append happends =>
    have hlonger := h.append (hkept.lt_appended happends)
    exact (hlonger.dir rfl).update fun runtime hruntime => hlonger.running runtime hruntime
  | appendThenStop happends => exact ((h.append (hkept.lt_appended happends)).dir rfl).down
  | stop =>
    rw [List.append_nil]
    exact h.down
  | sealSegment | sealCheckpoint | compactSegment | compactCheckpoint | collect | reclaimWal
  | createWal =>
    rw [List.append_nil]
    exact h.dir rfl
  | sealRuntime | compactRuntime =>
    rw [List.append_nil]
    exact h.update fun _ _ _ hindex => (by cases hindex)
  | closeWal | openWal =>
    rw [List.append_nil]
    exact h.update fun runtime hruntime => h.running runtime hruntime
  | publishHnsw hindexable hbuilt =>
    rw [List.append_nil]
    refine ⟨fun snapshot hsnapshot => ?_, h.running⟩
    cases hsnapshot
    exact ⟨_, _, _, rfl, hkept.indexes_indexable hindexable hbuilt⟩
  | setHnsw hcheckpointed hbuilt =>
    rw [List.append_nil]
    refine h.update fun runtime hruntime index hindex => ?_
    cases hcheckpointed.running.symm.trans hruntime
    exact ⟨_, hcheckpointed.current, hkept.indexes_built hcheckpointed.stored
      (hkept.covers_checkpointed hcheckpointed) (hbuilt index hindex)⟩
  | recover hrecovers =>
    rw [List.append_nil]
    refine h.keep rfl fun runtime hruntime => ?_
    cases hruntime
    exact h.recovered hkept hfingerprint hrecovers

theorem steps (h : Indexed S state store history) (hkept : Kept state store history)
    (hfingerprint : Function.Injective state.fingerprint)
    (hsteps : Steps S state store logged next)
    (hbound : (history ++ logged).length < maxSequence) :
    Indexed S state next (history ++ logged) := by
  induction hsteps with
  | refl => rwa [List.append_nil]
  | tail hfirst hstep ih =>
    rw [← List.append_assoc] at hbound ⊢
    rw [List.length_append] at hbound
    have hshorter := (Nat.le_add_right _ _).trans_lt hbound
    exact (ih hshorter).step (hkept.steps hfirst hshorter) hfingerprint hstep

end Indexed

end Indexed

end StoreStep

namespace Session

open StoreStep

variable {F : Type} [DecidableEq F] {S : Type} [ScoreArith S] {state : AppState F}
  {config : CollectionConfig}

end Session

end Ketebe
