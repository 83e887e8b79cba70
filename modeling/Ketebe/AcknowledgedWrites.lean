import Ketebe.CollectionSession
import Ketebe.Compaction
import Ketebe.StoreHistory
import Ketebe.StoreIntegrity

/-!
What clients can rely on. Whatever fails or crashes, readers see what the acknowledged batches
replay to, in their order, together with some of the batches that were not acknowledged. The
server recovers whenever nothing fails while it does.
-/
namespace Ketebe

open Lib Lib.ByteCodec Lib.Durable Lib.Durable.Program Lib.LatestVersion

open Segment (writes)

/-- Readers of the runtime see what the mutations replay to; new numbers are larger. -/
structure CollectionRuntime.Serves (id : CollectionId) (history : List WalMutation)
    (runtime : CollectionRuntime) : Prop where
  visible : ∃ segments, runtime.querySegments = .ok segments ∧
    foldVisibleRecords segments id = replay (writes history)
  next : ∀ mutation ∈ history, mutation.sequenceNumber < runtime.nextSequence

/-- A scope is that of the collection. -/
def AppState.Scoped {F : Type} (state : AppState F) : Prop :=
  ∀ scope, state.scope = some scope → scope.collectionId = state.collectionId

namespace StoreStep

variable {F : Type} {state : AppState F} {store : Store F} {history : List WalMutation}

theorem ordered_writes (h : Counted history) : (writes history).Pairwise fun v w =>
    v.sequence < w.sequence := by
  refine List.pairwise_map.mpr (h.pairwise.imp fun hlt => ?_)
  rwa [WalMutation.version_sequence, WalMutation.version_sequence]

/-- The segments that readers fold, and the versions in them. -/
theorem Kept.querySegments (h : Kept state store history) {runtime : CollectionRuntime}
    (hrunning : store.runtime = some runtime) : ∃ segments,
      runtime.querySegments = .ok segments ∧
        LatestVersion.Covers (writes history) (versionsIn segments state.collectionId) := by
  obtain ⟨replay, hsound⟩ := h.sound
  have hholds := h.runtime runtime hrunning
  have hnumbered := hsound.numbered.runtime runtime hrunning
  have hcollection : ∀ segment ∈ runtime.segments, segment.collectionId = state.collectionId :=
    fun segment hsegment => (hnumbered.segments segment hsegment).1.collection
  unfold CollectionRuntime.querySegments
  by_cases hempty : runtime.mutable = []
  · rw [if_pos hempty]
    refine ⟨runtime.segments, rfl, ?_⟩
    have hcovers := hholds.covers
    rwa [hempty, writes_nil, List.append_nil, ← versionsIn_of_collection hcollection] at hcovers
  · rw [if_neg hempty]
    have hincreasing : Wal.Increasing none runtime.mutable :=
      Wal.increasing_iff_pairwise.mpr ⟨fun _ _ _ hnone => (by cases hnone),
        h.counted.pairwise.sublist hholds.mutable.sublist⟩
    obtain ⟨segment, hsegment, hsame⟩ := Segment.fromMutations_exists (UInt64.ofNat maxSequence)
      hempty hincreasing fun mutation hmutation => (hnumbered.mutable mutation hmutation).1
    have hall : ∀ other ∈ runtime.segments ++ [segment],
        other.collectionId = state.collectionId := by
      intro other hother
      rcases List.mem_append.mp hother with hold | hnew
      · exact hcollection other hold
      · rwa [List.mem_singleton.mp hnew]
    refine ⟨runtime.segments ++ [segment], except_bind_ok.mpr ⟨segment, hsegment, rfl⟩, ?_⟩
    rw [versionsIn_of_collection hall, List.flatMap_append, List.flatMap_singleton]
    exact hholds.covers.trans ((LatestVersion.Covers.refl _).append
      (Segment.fromMutations_summarizes hsegment).2.covers)

theorem Kept.serves (h : Kept state store history) {runtime : CollectionRuntime}
    (hrunning : store.runtime = some runtime) : runtime.Serves state.collectionId history := by
  obtain ⟨segments, hsegments, hcovers⟩ := h.querySegments hrunning
  refine ⟨⟨segments, hsegments, ?_⟩, fun mutation hmutation => ?_⟩
  · rw [foldVisibleRecords, hcovers.fold_eq h.counted.functional,
      replay_eq_fold (ordered_writes h.counted)]
  · have hbound := (h.counted.bounds mutation hmutation).2
    rw [UInt64.lt_iff_toNat_lt, (h.runtime runtime hrunning).next]
    omega

/-! ### Recovery -/

section Recovery

theorem liveSegments_exists {replay : Wal.ReplayResult} (h : Sound state store replay) :
    ∃ segments, AppState.liveSegments store.dir = .ok segments := by
  unfold AppState.liveSegments
  cases hcheckpoint : store.dir.checkpoint with
  | none => exact ⟨_, rfl⟩
  | some checkpoint =>
    obtain ⟨hcollection, hpresent, hbounded⟩ := h.checkpoint checkpoint hcheckpoint
    have hsame : ¬checkpoint.collectionId ≠ store.dir.config.id := by
      rw [hcollection, h.numbered.config]
      exact not_not.mpr rfl
    simp only [if_neg hsame]
    refine except_mapM_exists.mpr fun id hid => ?_
    obtain ⟨segment, hsegment, rfl⟩ := hpresent id hid
    have hopened := SegmentStore.openSegment_ok h.distinct hsegment
    have hid' : ¬segment.collectionId ≠ store.dir.config.id := by
      rw [(h.numbered.files segment hsegment).collection, h.numbered.config]
      exact not_not.mpr rfl
    refine ⟨segment, except_bind_ok.mpr ⟨segment, mapError_ok_iff.mpr hopened, ?_⟩⟩
    rw [if_neg hid', if_neg (not_lt.mpr (hbounded segment hsegment hid))]
    rfl

theorem unsealed_exists {config : CollectionConfig} {entries : List WalMutation}
    (sequence : SequenceNumber) (h : ∀ mutation ∈ entries, mutation.Accepted config.id config) :
    ∃ mutable, AppState.unsealed config sequence entries = .ok mutable := by
  induction entries with
  | nil => exact ⟨[], rfl⟩
  | cons entry rest ih =>
    obtain ⟨mutable, hrest⟩ := ih fun mutation hmem => h mutation (List.mem_cons_of_mem _ hmem)
    obtain ⟨hcollection, hvalid⟩ := h entry (List.mem_cons_self ..)
    rw [AppState.unsealed, if_neg (not_not.mpr hcollection)]
    by_cases hsealed : entry.sequenceNumber ≤ sequence
    · rw [if_pos hsealed]
      exact ⟨mutable, hrest⟩
    · rw [if_neg hsealed]
      exact ⟨entry :: mutable, except_bind_ok.mpr ⟨(), hvalid, except_bind_ok.mpr
        ⟨mutable, hrest, rfl⟩⟩⟩

theorem checkScope_ok (h : state.Scoped) {artifact : String} :
    checkScope state.scope artifact state.collectionId = .ok () := by
  unfold checkScope
  cases hscope : state.scope with
  | none => rfl
  | some scope => exact if_pos (h scope hscope)

theorem checkMutations_ok (h : state.Scoped) {mutations : List WalMutation}
    (hmutations : ∀ mutation ∈ mutations, mutation.collectionId = state.collectionId) :
    checkMutations state.scope mutations = .ok () := by
  rw [checkMutations, except_forM_ok]
  intro mutation hmutation
  rw [hmutations mutation hmutation]
  exact checkScope_ok h

theorem returns_openWal {replay : Wal.ReplayResult} (h : Sound state store replay)
    (hscope : state.Scoped) : ∃ writer after,
      (AppState.openWal state.scope).Returns store (writer, replay.entries) after := by
  have hopens : Wal.openWithPolicy store.dir.wal .durable = .ok
      ⟨store.dir.wal.getD [], .durable, replay.entries.getLast?.map WalMutation.sequenceNumber⟩ :=
    except_bind_ok.mpr ⟨replay, h.replays, rfl⟩
  have hreplay : Wal.decodeLog (store.dir.wal.getD []) = .ok replay := by
    rw [← Sound.replayPath_getD]
    exact h.replays
  have hchecked := checkMutations_ok hscope fun mutation hmutation =>
    (h.log.accepted mutation hmutation).collection
  refine ⟨_, _, returns_getBind (returns_bind (returns_lift (mapError_ok_iff.mpr hopens))
    (returns_bind rfl (returns_bind (returns_lift (mapError_ok_iff.mpr hreplay))
      (returns_bind (returns_lift hchecked) returns_pure))))⟩

section Returns

variable {ε : Type} {S : Type} [ScoreArith S]

/-- Publishing the index is best effort, so building it always ends. -/
theorem returns_rebuildHnsw (checkpoint : Checkpoint) (metric : DistanceMetric)
    (segments : List Segment) (store : Store F) : ∃ hnsw after,
      (AppState.rebuildHnsw S state checkpoint metric segments :
        Program (Store F) ε (Option HnswIndex)).Returns store hnsw after := by
  unfold AppState.rebuildHnsw AppState.rebuildAndPublish
  cases AppState.buildHnsw S checkpoint metric segments with
  | ok index => exact ⟨_, _, rfl⟩
  | error error => exact ⟨_, _, rfl⟩

variable [DecidableEq F]

theorem returns_loadHnsw (checkpoint : Checkpoint) (metric : DistanceMetric) (store : Store F) :
    ∃ result, (AppState.loadHnsw S state checkpoint metric :
      Program (Store F) ε HnswLoadResult).Returns store result store := by
  cases hload : DecodedSnapshot.load S state.fingerprint ⟨checkpoint, metric, .default⟩
      store.dir.hnsw with
  | ok result =>
    exact ⟨result, returns_handle (returns_bind rfl (returns_getBind (returns_lift hload)))⟩
  | error error =>
    refine ⟨.missing, returns_handler error ?_ returns_pure⟩
    change lift (DecodedSnapshot.load S state.fingerprint ⟨checkpoint, metric, .default⟩
      store.dir.hnsw) ⟨store, []⟩ = _
    rw [hload]
    rfl

theorem returns_recoverHnsw (runtime : CollectionRuntime) (store : Store F) : ∃ hnsw after,
    (AppState.recoverHnsw S state runtime).Returns store hnsw after := by
  unfold AppState.recoverHnsw
  cases runtime.checkpoint with
  | none => exact ⟨none, store, returns_pure⟩
  | some checkpoint =>
    dsimp only
    by_cases hsealed : runtime.mutable = []
    · rw [if_pos hsealed]
      obtain ⟨result, hload⟩ : ∃ result, (AppState.loadHnsw S state checkpoint runtime.metric :
        Program (Store F) RuntimeError HnswLoadResult).Returns store result store :=
          returns_loadHnsw checkpoint runtime.metric store
      obtain ⟨hnsw, after, hrebuild⟩ : ∃ hnsw after, (AppState.rebuildHnsw S state checkpoint
        runtime.metric runtime.segments :
          Program (Store F) RuntimeError (Option HnswIndex)).Returns store hnsw after :=
            returns_rebuildHnsw checkpoint runtime.metric runtime.segments store
      cases result with
      | loaded index =>
        exact ⟨some index, store, returns_bind rfl (returns_bind hload returns_pure)⟩
      | missing => exact ⟨hnsw, after, returns_bind rfl (returns_bind hload hrebuild)⟩
      | stale => exact ⟨hnsw, after, returns_bind rfl (returns_bind hload hrebuild)⟩
    · rw [if_neg hsealed]
      exact ⟨none, store, returns_pure⟩

/-- When nothing fails, recovery returns. -/
theorem returns_recover {replay : Wal.ReplayResult} (h : Sound state store replay)
    (hscope : state.Scoped) : ∃ after, (AppState.recover S state).Returns store () after := by
  have hidentity : AppState.checkIdentity state store.dir.config = .ok () := by
    unfold AppState.checkIdentity
    rw [if_neg]
    rw [Option.any_eq_true]
    rintro ⟨scope, hsome, hne⟩
    refine absurd ((hscope scope hsome).trans h.numbered.config.symm) (of_decide_eq_true hne)
  obtain ⟨segments, hsegments⟩ := liveSegments_exists h
  obtain ⟨writer, opened, hopen⟩ := returns_openWal h hscope
  obtain ⟨mutable, hmutable⟩ := unsealed_exists store.dir.checkpointSequence
    fun mutation hmutation => by
      rw [h.numbered.config]
      exact h.log.accepted mutation hmutation
  have hruntime : (AppState.recoverRuntime state).Returns store _ opened :=
    returns_bind rfl (returns_getBind (returns_bind (returns_lift hidentity)
      (returns_bind (returns_lift hsegments) (returns_bind (returns_mapError hopen)
        (returns_bind (returns_lift hmutable) returns_pure)))))
  obtain ⟨hnsw, after, hindex⟩ : ∃ hnsw after, (AppState.recoverHnsw S state _).Returns opened hnsw
    after := returns_recoverHnsw _ opened
  exact ⟨_, returns_bind hruntime (returns_bind hindex returns_modify)⟩

end Returns

end Recovery

theorem Steps.trans [DecidableEq F] {S : Type} [ScoreArith S] {first middle last : Store F}
    {logged more : List WalMutation} (h : Steps S state first logged middle)
    (hmore : Steps S state middle more last) : Steps S state first (logged ++ more) last := by
  induction hmore with
  | refl =>
    rw [List.append_nil]
    exact h
  | tail _ hstep ih =>
    rw [← List.append_assoc]
    exact ih.tail hstep

end StoreStep

/-! ### Sessions -/

namespace Session

open StoreStep

variable {F : Type} [DecidableEq F] {S : Type} [ScoreArith S] {state : AppState F}
  {config : CollectionConfig}

theorem Logged.sublist {calls : List Call} {logged : List WalMutation} (h : Logged calls logged) :
    logged.Sublist (calls.flatMap Call.mutations) := by
  induction h with
  | nil => exact List.Sublist.slnil
  | kept _ call ih =>
    rw [List.flatMap_append, List.flatMap_singleton]
    exact ih.append (List.Sublist.refl _)
  | lost _ call _ ih =>
    rw [List.flatMap_append]
    exact ih.trans (List.sublist_append_left ..)

variable (S state config) in
/-- The session after these events on a new collection. -/
def run (events : List Event) : Session F := events.foldl (step S state) (created state config)

/-- The calls have offered so few mutations that no sequence number is used twice. -/
def Numerable (session : Session F) : Prop :=
  (session.calls.flatMap Call.mutations).length < maxSequence

omit [DecidableEq F] in
theorem Numerable.length_lt {session : Session F} {logged : List WalMutation}
    (h : session.Numerable) (hlogged : Logged session.calls logged) :
    logged.length < maxSequence := hlogged.sublist.length_le.trans_lt h

end Session

end Ketebe
