import Ketebe.SegmentStore
import Ketebe.StoreStep

/-!
The numbers of a store. In every state that a store can reach the versions that its
runtime holds have been numbered before the next number, unless the numbers have run out,
and all of them belong to the one collection.
-/
namespace Ketebe

open Lib.ByteCodec Lib.LatestVersion

/-- A number before the next one. The last number of all is given out again and again. -/
def SequenceNumber.Issued (next sequence : SequenceNumber) : Prop :=
  sequence < next ∨ next.toNat = maxSequence

namespace SequenceNumber

variable {sequence next : SequenceNumber}

theorem lt_saturatingSucc (h : sequence.toNat < maxSequence) : sequence < sequence.saturatingSucc := by
  rw [UInt64.lt_iff_toNat_lt, toNat_saturatingSucc sequence h]
  exact Nat.lt_succ_self _

theorem saturatingSucc_last (h : ¬sequence.toNat < maxSequence) : sequence.saturatingSucc = sequence :=
  if_neg h

theorem Issued.succ (h : sequence ≤ next) : Issued next.saturatingSucc sequence := by
  by_cases hlast : next.toNat < maxSequence
  · exact .inl (h.trans_lt (lt_saturatingSucc hlast))
  · have hbound := next.toNat_lt
    rw [Issued, saturatingSucc_last hlast]
    unfold maxSequence at hlast ⊢
    exact .inr (by omega)

theorem Issued.later (h : Issued next sequence) : Issued next.saturatingSucc sequence := by
  rcases h with hlt | hlast
  · exact .succ hlt.le
  · rw [saturatingSucc_last (by omega)]
    exact .inr hlast

theorem Issued.mono {smaller : SequenceNumber} (h : Issued next sequence) (hle : smaller ≤ sequence) :
    Issued next smaller := h.imp_left hle.trans_lt

end SequenceNumber

open SequenceNumber

/-- Numbering goes on from the next number. -/
theorem numberFrom_issued {batch : List PendingMutation} {next last : SequenceNumber}
    {mutations : List WalMutation} (h : numberFrom next batch = (mutations, last)) :
    (∀ sequence, Issued next sequence → Issued last sequence) ∧
      ∀ mutation ∈ mutations, next ≤ mutation.sequenceNumber ∧
        Issued last mutation.sequenceNumber := by
  induction batch generalizing next mutations with
  | nil =>
    cases h
    exact ⟨fun _ h => h, nofun⟩
  | cons pending rest ih =>
    rcases hrest : numberFrom next.saturatingSucc rest with ⟨later, final⟩
    rw [numberFrom, hrest] at h
    cases h
    obtain ⟨hkept, hlater⟩ := ih hrest
    have hfirst : (pending.numbered next).sequenceNumber = next := by cases pending <;> rfl
    have hle : next ≤ next.saturatingSucc := by
      by_cases hlast : next.toNat < maxSequence
      · exact (lt_saturatingSucc hlast).le
      · exact (saturatingSucc_last hlast).ge
    refine ⟨fun sequence hsequence => hkept sequence hsequence.later, fun mutation hmutation => ?_⟩
    rcases List.mem_cons.mp hmutation with rfl | hmem
    · rw [hfirst]
      exact ⟨le_rfl, hkept next (.succ le_rfl)⟩
    · obtain ⟨hfrom, hissued⟩ := hlater mutation hmem
      exact ⟨hle.trans hfrom, hissued⟩

theorem collectionId_numberFrom {batch : List PendingMutation} {id : CollectionId}
    {config : CollectionConfig} {next last : SequenceNumber} {mutations : List WalMutation}
    (hbatch : ∀ pending ∈ batch, pending.Accepted id config)
    (h : numberFrom next batch = (mutations, last)) :
    ∀ mutation ∈ mutations, mutation.collectionId = id := by
  induction batch generalizing next mutations with
  | nil =>
    cases h
    exact nofun
  | cons pending rest ih =>
    rcases hrest : numberFrom next.saturatingSucc rest with ⟨later, final⟩
    rw [numberFrom, hrest] at h
    cases h
    intro mutation hmutation
    rcases List.mem_cons.mp hmutation with rfl | hmem
    · have haccepted := hbatch pending (List.mem_cons_self ..)
      cases pending with
      | upsert collectionId recordId vector metadata => exact haccepted.1
      | delete collectionId recordId => exact haccepted
    · exact ih (fun other hother => hbatch other (List.mem_cons_of_mem _ hother)) hrest mutation hmem

/-! ### The segments of a collection -/

/-- A segment of the collection that ends with its largest number. -/
structure Segment.Of (id : CollectionId) (segment : Segment) : Prop where
  collection : segment.collectionId = id
  bounded : ∀ v ∈ segment.versions, v.sequence ≤ segment.maxSequence

/-- A segment of mutations of the collection, which ends with the number of one of them. -/
theorem Segment.of_fromMutations {id : CollectionId} {segmentId : SegmentId}
    {mutations : List WalMutation} {segment : Segment}
    (h : fromMutations segmentId mutations = .ok segment)
    (hcollection : ∀ mutation ∈ mutations, mutation.collectionId = id) :
    segment.Of id ∧ ∃ mutation ∈ mutations, mutation.sequenceNumber = segment.maxSequence := by
  obtain ⟨-, hsummary⟩ := fromMutations_summarizes h
  obtain ⟨last, hlast, hsequence, -⟩ := hsummary.last
  refine ⟨⟨?_, fun v hv => hsummary.le_maxSequence hv⟩, last, hlast, hsequence⟩
  rw [← hsummary.collection last hlast, hcollection last hlast]

/-- The compacted segment ends with the number of a version that it replaces. -/
theorem Segment.of_compactSegments {id : CollectionId} {replacementId : SegmentId}
    {segments : List Segment} {replacement : Segment}
    (h : compactSegments replacementId segments = .ok replacement)
    (hsegments : ∀ segment ∈ segments, segment.Of id) :
    replacement.Of id ∧ ∃ segment ∈ segments, replacement.maxSequence ≤ segment.maxSequence := by
  unfold compactSegments at h
  split at h
  · rename_i first second rest
    split at h
    · cases h
    · have hfirst : first.collectionId = id := (hsegments first (List.mem_cons_self ..)).collection
      rw [hfirst] at h
      obtain ⟨hof, mutation, hmutation, hsequence⟩ := of_fromMutations (mapError_ok_iff.mp h)
        fun mutation hmutation => by
          obtain ⟨v, -, rfl⟩ := mem_latestMutations.mp hmutation
          exact collectionId_mutationOf id v
      obtain ⟨v, hv, rfl⟩ := mem_latestMutations.mp hmutation
      obtain ⟨segment, hsegment, hversion⟩ :=
        List.mem_flatMap.mp (latest_of_fold (mem_versionsOf.mp hv)).1
      rw [← WalMutation.version_sequence, version_mutationOf hversion] at hsequence
      refine ⟨hof, segment, hsegment, ?_⟩
      rw [← hsequence]
      exact (hsegments segment hsegment).bounded v hversion
  · cases h

/-! ### The invariant -/

/-- The runtime holds segments and mutations of the collection with numbers given out. -/
structure CollectionRuntime.Numbered (id : CollectionId) (runtime : CollectionRuntime) : Prop where
  segments : ∀ segment ∈ runtime.segments, segment.Of id ∧
    Issued runtime.nextSequence segment.maxSequence
  mutable : ∀ mutation ∈ runtime.mutable, mutation.collectionId = id ∧
    Issued runtime.nextSequence mutation.sequenceNumber

namespace StoreStep

variable {F : Type} {state : AppState F} {store : Store F}

structure Numbered (state : AppState F) (store : Store F) : Prop where
  config : store.dir.config.id = state.collectionId
  files : ∀ segment ∈ store.dir.segments.files, segment.Of state.collectionId
  runtime : ∀ runtime, store.runtime = some runtime → runtime.Numbered state.collectionId

theorem numbered_created {config : CollectionConfig} (hconfig : config.id = state.collectionId) :
    Numbered state (.created state config) := by
  refine ⟨hconfig, nofun, fun runtime hruntime => ?_⟩
  cases hruntime
  exact ⟨nofun, nofun⟩

namespace Numbered

theorem down (h : Numbered state store) : Numbered state store.down := by
  refine ⟨h.config, h.files, fun runtime hruntime => ?_⟩
  have hnone : store.down.runtime = none := rfl
  cases hnone.symm.trans hruntime

/-- The other files of the collection may change. -/
theorem dir (h : Numbered state store) {update : CollectionDir F → CollectionDir F}
    (hconfig : (update store.dir).config = store.dir.config)
    (hsegments : ∀ segment ∈ (update store.dir).segments.files,
      segment.Of state.collectionId) : Numbered state (store.updateDir update) := by
  refine ⟨?_, hsegments, h.runtime⟩
  rw [Store.updateDir, hconfig]
  exact h.config

theorem update (h : Numbered state store) {update : CollectionRuntime → CollectionRuntime}
    (hupdate : ∀ runtime, store.runtime = some runtime → runtime.Numbered state.collectionId →
      (update runtime).Numbered state.collectionId) :
    Numbered state (store.updateRuntime update) := by
  refine ⟨h.config, h.files, fun runtime hruntime => ?_⟩
  obtain ⟨before, hbefore, rfl⟩ := Option.map_eq_some_iff.mp hruntime
  exact hupdate before hbefore (h.runtime before hbefore)

theorem publish (h : Numbered state store) {segment : Segment}
    (hsegment : segment.Of state.collectionId) : Numbered state (store.updateDir fun dir =>
      { dir with segments := dir.segments.publish segment }) := by
  refine h.dir rfl fun other hother => ?_
  rcases List.mem_append.mp hother with hold | hnew
  · exact h.files other hold
  · rw [List.mem_singleton.mp hnew]
    exact hsegment

/-- The sealed segment, and what its last number says. -/
theorem seals (h : Numbered state store) {runtime : CollectionRuntime} {segment : Segment}
    (hseals : Seals store runtime segment) : segment.Of state.collectionId ∧
      Issued runtime.nextSequence segment.maxSequence := by
  have hruntime := h.runtime runtime hseals.running
  obtain ⟨hof, mutation, hmutation, hsequence⟩ := Segment.of_fromMutations hseals.segment
    fun mutation hmutation => (hruntime.mutable mutation hmutation).1
  rw [← hsequence]
  exact ⟨hof, (hruntime.mutable mutation hmutation).2⟩

theorem compacts (h : Numbered state store) {runtime : CollectionRuntime} {replacement : Segment}
    (hcompacts : Compacts store runtime replacement) : replacement.Of state.collectionId ∧
      Issued runtime.nextSequence replacement.maxSequence := by
  have hruntime := h.runtime runtime hcompacts.running
  obtain ⟨hof, segment, hsegment, hle⟩ := Segment.of_compactSegments hcompacts.replacement
    fun segment hsegment => (hruntime.segments segment hsegment).1
  exact ⟨hof, (hruntime.segments segment hsegment).2.mono hle⟩

theorem append (h : Numbered state store) {config : CollectionConfig}
    {runtime : CollectionRuntime} {mutations : List WalMutation} {next : SequenceNumber} {log : Wal}
    (happends : Appends state store config runtime mutations next log) :
    CollectionRuntime.Numbered state.collectionId { runtime with
      mutable := runtime.mutable ++ mutations
      wal := some ⟨log.syncPolicy, log.lastSequence⟩
      nextSequence := next } := by
  have hruntime := h.runtime runtime happends.running
  obtain ⟨batch, haccepted, hnumbered⟩ := happends.batch
  obtain ⟨hkept, hnew⟩ := numberFrom_issued hnumbered
  refine ⟨fun segment hsegment => ?_, fun mutation hmutation => ?_⟩
  · obtain ⟨hof, hissued⟩ := hruntime.segments segment hsegment
    exact ⟨hof, hkept _ hissued⟩
  · rcases List.mem_append.mp hmutation with hold | hadded
    · obtain ⟨hcollection, hissued⟩ := hruntime.mutable mutation hold
      exact ⟨hcollection, hkept _ hissued⟩
    · exact ⟨collectionId_numberFrom haccepted hnumbered mutation hadded, (hnew mutation hadded).2⟩

end Numbered

/-! ### Recovery -/

theorem le_maxOf {sequences : List SequenceNumber} {sequence : SequenceNumber}
    (h : sequence ∈ sequences) : sequence ≤ CollectionRuntime.maxOf sequences :=
  (SegmentStore.le_foldl_max sequences 0).2 sequence h

/-- What recovery numbers next comes behind all that it found. -/
theorem numbered_writable {scope : Option DataPlaneScope} {config : CollectionConfig}
    {segments : List Segment} {mutable : List WalMutation} {wal : Option WalWriter}
    {checkpoint : Option Checkpoint} (hsegments : ∀ segment ∈ segments, segment.Of config.id)
    (hmutable : ∀ mutation ∈ mutable, mutation.collectionId = config.id) :
    (CollectionRuntime.writable scope config segments mutable wal checkpoint).Numbered
      config.id := by
  refine ⟨fun segment hsegment => ⟨hsegments segment hsegment, .succ ?_⟩,
    fun mutation hmutation => ⟨hmutable mutation hmutation, .succ ?_⟩⟩
  · have hle : segment.maxSequence ≤ _ := le_maxOf (List.mem_map_of_mem hsegment)
    exact (hle.trans (le_max_left ..)).trans (le_max_left ..)
  · have hle : mutation.sequenceNumber ≤ _ := le_maxOf (List.mem_map_of_mem hmutation)
    exact (hle.trans (le_max_right ..)).trans (le_max_left ..)

theorem mem_of_openNamed {id : CollectionId} {segments : SegmentStore} {checkpoint : Checkpoint}
    {segmentId : SegmentId} {segment : Segment}
    (h : AppState.openNamed id segments checkpoint segmentId = .ok segment) :
    segment ∈ segments.files := by
  obtain ⟨opened, hopened, h⟩ := except_bind_ok.mp h
  have hfound := mapError_ok_iff.mp hopened
  unfold SegmentStore.openSegment at hfound
  split at hfound
  · rename_i other hother
    cases hfound
    have hmem := List.mem_of_find?_eq_some hother
    split at h
    · cases h
    · split at h
      · cases h
      · cases h
        exact hmem
  · cases hfound

/-- Recovery finds only segments that are on disk. -/
theorem mem_of_liveSegments {dir : CollectionDir F} {segments : List Segment}
    (h : AppState.liveSegments dir = .ok segments) :
    ∀ segment ∈ segments, segment ∈ dir.segments.files := by
  intro segment hsegment
  unfold AppState.liveSegments at h
  split at h
  · split at h
    · cases h
    · obtain ⟨id, -, hopened⟩ := (mem_of_except_mapM h).1 segment hsegment
      exact mem_of_openNamed hopened
  · cases h
    exact SegmentStore.mem_discover.mp hsegment

theorem collectionId_of_unsealed {config : CollectionConfig} {checkpointSequence : SequenceNumber}
    {entries mutable : List WalMutation}
    (h : AppState.unsealed config checkpointSequence entries = .ok mutable) :
    ∀ mutation ∈ mutable, mutation.collectionId = config.id := by
  induction entries generalizing mutable with
  | nil =>
    cases h
    exact nofun
  | cons entry rest ih =>
    unfold AppState.unsealed at h
    split at h
    · cases h
    · rename_i hcollection
      split at h
      · exact ih h
      · obtain ⟨-, -, h⟩ := except_bind_ok.mp h
        obtain ⟨later, hlater, h⟩ := except_bind_ok.mp h
        cases h
        intro mutation hmutation
        rcases List.mem_cons.mp hmutation with rfl | hmem
        · exact not_not.mp hcollection
        · exact ih hlater mutation hmem

/-! ### Runs -/

section Runs

variable [DecidableEq F] {S : Type} [ScoreArith S] {logged : List WalMutation} {next : Store F}

theorem Numbered.recovers (h : Numbered state store) {runtime : CollectionRuntime}
    (hrecovers : Recovers S state store runtime) : runtime.Numbered state.collectionId := by
  obtain ⟨log, replay, -, -, hunsealed⟩ := hrecovers.log
  have hwritable : (CollectionRuntime.writable state.scope store.dir.config runtime.segments
      runtime.mutable runtime.wal store.dir.checkpoint).Numbered store.dir.config.id := by
    refine numbered_writable (fun segment hsegment => ?_) (collectionId_of_unsealed hunsealed)
    rw [h.config]
    exact h.files segment (mem_of_liveSegments hrecovers.segments segment hsegment)
  rw [h.config] at hwritable
  rw [hrecovers.writable]
  exact ⟨hwritable.segments, hwritable.mutable⟩

/-- Every step of a store keeps its numbers in order. -/
theorem Numbered.step (h : Numbered state store) (hstep : Step S state store logged next) :
    Numbered state next := by
  cases hstep with
  | stop => exact h.down
  | append happends =>
    refine (h.dir rfl h.files).update fun runtime hruntime _ => ?_
    cases happends.running.symm.trans hruntime
    exact h.append happends
  | appendThenStop happends => exact (h.dir rfl h.files).down
  | sealSegment hseals => exact h.publish (h.seals hseals).1
  | sealCheckpoint hseals => exact h.dir rfl h.files
  | sealRuntime hseals =>
    refine h.update fun runtime hruntime hnumbered => ⟨fun segment hsegment => ?_, nofun⟩
    cases hseals.running.symm.trans hruntime
    rcases List.mem_append.mp hsegment with hold | hnew
    · exact hnumbered.segments segment hold
    · have hsealed := h.seals hseals
      rw [List.mem_singleton.mp hnew]
      exact hsealed
  | compactSegment hcompacts => exact h.publish (h.compacts hcompacts).1
  | compactCheckpoint hcompacts => exact h.dir rfl h.files
  | compactRuntime hcompacts =>
    refine h.update fun runtime hruntime hnumbered => ⟨fun segment hsegment => ?_, ?_⟩
    · have hcompacted := h.compacts hcompacts
      rw [List.mem_singleton.mp hsegment]
      exact hcompacted
    · cases hcompacts.running.symm.trans hruntime
      exact hnumbered.mutable
  | collect hcheckpointed =>
    exact h.dir rfl fun segment hsegment => h.files segment (List.mem_filter.mp hsegment).1
  | closeWal => exact h.update fun _ _ hnumbered => ⟨hnumbered.segments, hnumbered.mutable⟩
  | reclaimWal => exact h.dir rfl h.files
  | createWal => exact h.dir rfl h.files
  | openWal => exact h.update fun _ _ hnumbered => ⟨hnumbered.segments, hnumbered.mutable⟩
  | publishHnsw => exact h.dir rfl h.files
  | setHnsw => exact h.update fun _ _ hnumbered => ⟨hnumbered.segments, hnumbered.mutable⟩
  | recover hrecovers =>
    refine ⟨h.config, h.files, fun runtime hruntime => ?_⟩
    cases hruntime
    exact h.recovers hrecovers

theorem Numbered.steps (h : Numbered state store) (hsteps : Steps S state store logged next) :
    Numbered state next := by
  induction hsteps with
  | refl => exact h
  | tail _ hstep ih => exact ih.step hstep

end Runs

end StoreStep

end Ketebe
