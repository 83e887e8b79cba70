import Ketebe.IntegrityVerifier
import Ketebe.StoreNumbers

/-!
What every store that has been reached holds: its segments are valid, the
checkpoint names segments that are on disk and ends with the last of them, and
the log replays to mutations of the collection. Only an append can spoil the
log, one that is written behind a part of another.
-/
namespace Ketebe

open Lib.ByteCodec Lib.LatestVersion

/-! ### Valid segments -/

namespace Segment

variable {segment : Segment} {mutations : List WalMutation} {config : CollectionConfig}

theorem Summarizes.le_of_mem (h : segment.Summarizes mutations) :
    ∀ mutation ∈ mutations, mutation.sequenceNumber ≤ segment.maxSequence := by
  obtain ⟨last, -, hmaximum, hle⟩ := h.last
  rw [← hmaximum]
  exact hle

theorem Summarizes.minSequence_le_of_mem (h : segment.Summarizes mutations) :
    ∀ mutation ∈ mutations, segment.minSequence ≤ mutation.sequenceNumber := by
  have hincreasing := (Wal.increasing_iff_pairwise.mp h.increasing).2
  have hminimum := h.minimum
  intro mutation hmutation
  cases mutations with
  | nil => cases hmutation
  | cons first rest =>
    have hfirst : segment.minSequence = first.sequenceNumber := Option.some.inj hminimum
    rw [hfirst]
    rcases List.mem_cons.mp hmutation with rfl | hmem
    · exact le_refl _
    · exact ((List.pairwise_cons.mp hincreasing).1 mutation hmem).le

/-- A record of a segment is the value of one of its versions. -/
theorem mem_records {record : Record} :
    record ∈ segment.records ↔ ∃ v ∈ segment.versions, v.value = some record := by
  constructor
  · intro hrecord
    exact ⟨record.version, List.mem_append_left _ (List.mem_map_of_mem hrecord), rfl⟩
  · rintro ⟨v, hv, hvalue⟩
    rcases List.mem_append.mp hv with hmem | hmem
    · obtain ⟨other, hother, rfl⟩ := List.mem_map.mp hmem
      have heq : other = record := Option.some.inj hvalue
      rwa [← heq]
    · obtain ⟨tombstone, -, rfl⟩ := List.mem_map.mp hmem
      cases hvalue

/-- Checked mutations make a valid segment. -/
theorem valid_fromMutations {id : SegmentId} (h : fromMutations id mutations = .ok segment)
    (hchecked : ∀ mutation ∈ mutations, AppState.checkMutation config mutation = .ok ()) :
    segment.Valid config := by
  obtain ⟨-, hsummary⟩ := fromMutations_summarizes h
  refine ⟨fun v hv => ⟨?_, hsummary.le_maxSequence hv⟩, fun record hrecord => ?_⟩
  · obtain ⟨mutation, hmutation, rfl⟩ := List.mem_map.mp ((hsummary.version v).mp hv).1
    rw [WalMutation.version_sequence]
    exact hsummary.minSequence_le_of_mem mutation hmutation
  · obtain ⟨v, hv, hvalue⟩ := mem_records.mp hrecord
    obtain ⟨mutation, hmutation, rfl⟩ := List.mem_map.mp ((hsummary.version v).mp hv).1
    have hvalid := hchecked mutation hmutation
    cases mutation with
    | upsert collectionId other =>
      have heq : other = record := Option.some.inj hvalue
      rw [← heq]
      exact mapError_ok_iff.mp hvalid
    | delete collectionId recordId sequence => cases hvalue

/-- Compaction rebuilds a segment from versions that were valid. -/
theorem valid_compactSegments {id : SegmentId} {segments : List Segment} {replacement : Segment}
    (h : compactSegments id segments = .ok replacement)
    (hvalid : ∀ segment ∈ segments, segment.Valid config) : replacement.Valid config := by
  unfold compactSegments at h
  split at h
  · rename_i first second rest
    split at h
    · cases h
    · refine valid_fromMutations (mapError_ok_iff.mp h) fun mutation hmutation => ?_
      obtain ⟨v, hv, rfl⟩ := mem_latestMutations.mp hmutation
      obtain ⟨segment, hsegment, hversion⟩ :=
        List.mem_flatMap.mp (latest_of_fold (mem_versionsOf.mp hv)).1
      unfold mutationOf
      cases hvalue : v.value with
      | none => rfl
      | some record =>
        have hrecord := mem_records.mpr ⟨v, hversion, hvalue⟩
        exact mapError_ok_iff.mpr ((hvalid segment hsegment).records record hrecord)
  · cases h

end Segment

theorem accepted_numberFrom {batch : List PendingMutation} {id : CollectionId}
    {config : CollectionConfig} {next last : SequenceNumber} {mutations : List WalMutation}
    (hbatch : ∀ pending ∈ batch, pending.Accepted id config)
    (h : numberFrom next batch = (mutations, last)) :
    ∀ mutation ∈ mutations, mutation.Accepted id config := by
  induction batch generalizing next mutations with
  | nil =>
    cases h
    exact nofun
  | cons pending rest ih =>
    rcases hrest : numberFrom next.saturatingSucc rest with ⟨later, final⟩
    rw [numberFrom, hrest] at h
    cases h
    intro mutation hmutation
    rcases List.mem_cons.mp hmutation with rfl | hmem
    · have hpending := hbatch pending (List.mem_cons_self ..)
      cases pending with
      | upsert collectionId recordId vector metadata =>
        exact ⟨hpending.1, mapError_ok_iff.mpr hpending.2⟩
      | delete collectionId recordId => exact ⟨hpending, rfl⟩
    · exact ih (fun other hother => hbatch other (List.mem_cons_of_mem _ hother)) hrest mutation hmem

/-! ### The invariant -/

/-- The checkpoint names segments that are on disk, and none of them is later. -/
structure Checkpoint.Refers (checkpoint : Checkpoint) (id : CollectionId)
    (files : List Segment) : Prop where
  collection : checkpoint.collectionId = id
  present : ∀ segmentId ∈ checkpoint.segments, ∃ segment ∈ files, segment.id = segmentId
  bounded : ∀ segment ∈ files, segment.id ∈ checkpoint.segments →
    segment.maxSequence ≤ checkpoint.sequenceNumber

/-- What the log replays to belongs to the collection. Until there is a checkpoint the log
has a mutation at least as late as every segment. -/
structure LogSound (id : CollectionId) (config : CollectionConfig) (checkpoint : Option Checkpoint)
    (files : List Segment) (entries : List WalMutation) : Prop where
  accepted : ∀ mutation ∈ entries, mutation.Accepted id config
  later : checkpoint = none → ∀ segment ∈ files, ∃ mutation ∈ entries,
    segment.maxSequence ≤ mutation.sequenceNumber

/-- The runtime holds what is on disk. -/
structure CollectionRuntime.Backed {F : Type} (dir : CollectionDir F)
    (entries : List WalMutation) (runtime : CollectionRuntime) : Prop where
  config : runtime.config = some dir.config
  segments : ∀ segment ∈ runtime.segments, segment ∈ dir.segments.files
  named : ∀ checkpoint, runtime.checkpoint = some checkpoint → ∀ segmentId,
    segmentId ∈ checkpoint.segments ↔ ∃ segment ∈ runtime.segments, segment.id = segmentId
  bounded : ∀ checkpoint, runtime.checkpoint = some checkpoint → ∀ segment ∈ runtime.segments,
    segment.maxSequence ≤ checkpoint.sequenceNumber
  mutable : ∀ mutation ∈ runtime.mutable, mutation ∈ entries
  latest : runtime.mutable ≠ [] → ∀ segment ∈ runtime.segments, ∃ mutation ∈ runtime.mutable,
    segment.maxSequence ≤ mutation.sequenceNumber

/-- The log ends between two frames, the last of which is the one that the writer of the
runtime knows of. -/
def Store.CleanLog {F : Type} (store : Store F) : Prop :=
  ∀ runtime writer replay, store.runtime = some runtime → runtime.wal = some writer →
    Wal.replayPath store.dir.wal = .ok replay → replay.ignoredTailBytes = 0 ∧
      Wal.lastSequenceOf none replay.entries = writer.lastSequence

namespace StoreStep

variable {F : Type} {state : AppState F} {store : Store F}

structure Sound (state : AppState F) (store : Store F) (replay : Wal.ReplayResult) : Prop where
  numbered : Numbered state store
  distinct : (store.dir.segments.files.map Segment.id).Nodup
  valid : ∀ segment ∈ store.dir.segments.files, segment.Valid store.dir.config
  checkpoint : ∀ checkpoint, store.dir.checkpoint = some checkpoint →
    checkpoint.Refers state.collectionId store.dir.segments.files
  replays : Wal.replayPath store.dir.wal = .ok replay
  log : LogSound state.collectionId store.dir.config store.dir.checkpoint
    store.dir.segments.files replay.entries
  runtime : ∀ runtime, store.runtime = some runtime → runtime.Backed store.dir replay.entries

namespace Sound

variable {replay : Wal.ReplayResult}

/-- A new collection is sound; its log is empty. -/
theorem created {config : CollectionConfig} (hconfig : config.id = state.collectionId) :
    Sound state (.created state config) ⟨[], 0⟩ := by
  refine ⟨numbered_created hconfig, List.nodup_nil, nofun, nofun, Wal.decodeFrames_nil none,
    ⟨nofun, fun _ => nofun⟩, fun runtime hruntime => ?_⟩
  cases hruntime
  exact ⟨rfl, nofun, nofun, nofun, nofun, fun h => absurd rfl h⟩

theorem down (h : Sound state store replay) : Sound state store.down replay := by
  refine ⟨h.numbered.down, h.distinct, h.valid, h.checkpoint, h.replays, h.log,
    fun runtime hruntime => ?_⟩
  have hnone : store.down.runtime = none := rfl
  cases hnone.symm.trans hruntime

theorem update (h : Sound state store replay) {update : CollectionRuntime → CollectionRuntime}
    (hnumbered : Numbered state (store.updateRuntime update))
    (hupdate : ∀ runtime, store.runtime = some runtime →
      runtime.Backed store.dir replay.entries → (update runtime).Backed store.dir replay.entries) :
    Sound state (store.updateRuntime update) replay := by
  refine ⟨hnumbered, h.distinct, h.valid, h.checkpoint, h.replays, h.log, fun runtime hruntime => ?_⟩
  obtain ⟨before, hbefore, rfl⟩ := Option.map_eq_some_iff.mp hruntime
  exact hupdate before hbefore (h.runtime before hbefore)

/-- The stored index may be anything. -/
theorem hnsw (h : Sound state store replay) (snapshot : Option (DecodedSnapshot F)) :
    Sound state (store.updateDir fun dir => { dir with hnsw := snapshot }) replay :=
  ⟨h.numbered.dir rfl h.numbered.files, h.distinct, h.valid, h.checkpoint, h.replays, h.log,
    fun runtime hruntime =>
      let hbacked := h.runtime runtime hruntime
      ⟨hbacked.config, hbacked.segments, hbacked.named, hbacked.bounded, hbacked.mutable,
        hbacked.latest⟩⟩

/-! ### Publishing -/

/-- A segment under a new id joins the others. -/
theorem publish (h : Sound state store replay) {segment : Segment}
    (hid : store.dir.segments.nextSegmentId = some segment.id)
    (hof : segment.Of state.collectionId) (hvalid : segment.Valid store.dir.config)
    (hlater : store.dir.checkpoint = none → ∃ mutation ∈ replay.entries,
      segment.maxSequence ≤ mutation.sequenceNumber) :
    Sound state (store.updateDir fun dir =>
      { dir with segments := dir.segments.publish segment }) replay := by
  have hnew : ∀ other ∈ store.dir.segments.files, other.id < segment.id :=
    SegmentStore.lt_nextSegmentId hid
  refine ⟨h.numbered.publish hof, ?_, fun other hother => ?_, fun checkpoint hcheckpoint => ?_,
    h.replays, ⟨h.log.accepted, fun hnone other hother => ?_⟩, fun runtime hruntime => ?_⟩
  · show ((store.dir.segments.files ++ [segment]).map Segment.id).Nodup
    rw [List.map_append, List.nodup_append]
    refine ⟨h.distinct, List.nodup_singleton _, fun old hold new hnew' => ?_⟩
    obtain ⟨other, hother, rfl⟩ := List.mem_map.mp hold
    rw [List.mem_singleton.mp hnew']
    exact (hnew other hother).ne
  · rcases List.mem_append.mp hother with hold | hsingle
    · exact h.valid other hold
    · rwa [List.mem_singleton.mp hsingle]
  · obtain ⟨hcollection, hpresent, hbounded⟩ := h.checkpoint checkpoint hcheckpoint
    refine ⟨hcollection, fun segmentId hmem => ?_, fun other hother hmem => ?_⟩
    · obtain ⟨other, hother, hsame⟩ := hpresent segmentId hmem
      exact ⟨other, List.mem_append_left _ hother, hsame⟩
    · rcases List.mem_append.mp hother with hold | hsingle
      · exact hbounded other hold hmem
      · -- The new id is larger than every id that a checkpoint can name.
        obtain ⟨old, hold, hsame⟩ := hpresent other.id hmem
        rw [List.mem_singleton.mp hsingle] at hsame
        exact absurd hsame (hnew old hold).ne
  · rcases List.mem_append.mp hother with hold | hsingle
    · exact h.log.later hnone other hold
    · rw [List.mem_singleton.mp hsingle]
      exact hlater hnone
  · obtain ⟨hconfig, hsegments, hnamed, hbounded, hmutable, hlatest⟩ := h.runtime runtime hruntime
    exact ⟨hconfig, fun other hother => List.mem_append_left _ (hsegments other hother), hnamed,
      hbounded, hmutable, hlatest⟩

/-- A checkpoint that refers to what is on disk replaces the one before it. -/
theorem setCheckpoint (h : Sound state store replay) {checkpoint : Checkpoint}
    (hrefers : checkpoint.Refers state.collectionId store.dir.segments.files) :
    Sound state (store.updateDir fun dir => { dir with checkpoint := some checkpoint }) replay := by
  refine ⟨h.numbered.dir rfl h.numbered.files, h.distinct, h.valid, fun other hother => ?_,
    h.replays, ⟨h.log.accepted, nofun⟩, fun runtime hruntime => ?_⟩
  · cases hother
    exact hrefers
  · obtain ⟨hconfig, hsegments, hnamed, hbounded, hmutable, hlatest⟩ := h.runtime runtime hruntime
    exact ⟨hconfig, hsegments, hnamed, hbounded, hmutable, hlatest⟩

theorem eq_of_id (h : Sound state store replay) {segment other : Segment}
    (hsegment : segment ∈ store.dir.segments.files) (hother : other ∈ store.dir.segments.files)
    (hid : other.id = segment.id) : other = segment :=
  List.inj_on_of_nodup_map h.distinct hother hsegment hid

theorem mem_of_publishedLast {segment : Segment} (h : PublishedLast store segment) :
    segment ∈ store.dir.segments.files := by
  obtain ⟨earlier, -, hpublished⟩ := h
  rw [hpublished]
  exact List.mem_append_right _ (List.mem_singleton_self _)

/-! ### Sealing -/

section Sealing

variable {runtime : CollectionRuntime} {segment : Segment}

theorem mutable_checked (h : Sound state store replay) (hrunning : store.runtime = some runtime) :
    ∀ mutation ∈ runtime.mutable, AppState.checkMutation store.dir.config mutation = .ok () :=
  fun mutation hmutation =>
    (h.log.accepted mutation ((h.runtime runtime hrunning).mutable mutation hmutation)).valid

/-- The sealed segment ends behind every segment of the runtime. -/
theorem le_sealed (h : Sound state store replay) (hseals : Seals store runtime segment) :
    ∀ other ∈ runtime.segments, other.maxSequence ≤ segment.maxSequence := by
  obtain ⟨-, hsummary⟩ := Segment.fromMutations_summarizes hseals.segment
  intro other hother
  obtain ⟨mutation, hmutation, hle⟩ :=
    (h.runtime runtime hseals.running).latest hsummary.nonempty other hother
  exact hle.trans (hsummary.le_of_mem mutation hmutation)

theorem sealSegment (h : Sound state store replay) (hseals : Seals store runtime segment)
    (hid : store.dir.segments.nextSegmentId = some segment.id) :
    Sound state (store.updateDir fun dir =>
      { dir with segments := dir.segments.publish segment }) replay := by
  have hbacked := h.runtime runtime hseals.running
  obtain ⟨-, hsummary⟩ := Segment.fromMutations_summarizes hseals.segment
  obtain ⟨last, hlast, hmaximum, -⟩ := hsummary.last
  exact h.publish hid (h.numbered.seals hseals).1
    (Segment.valid_fromMutations hseals.segment (h.mutable_checked hseals.running))
    fun _ => ⟨last, hbacked.mutable last hlast, hmaximum.ge⟩

theorem mem_liveIds (h : Sound state store replay) (hrunning : store.runtime = some runtime)
    {segmentId : SegmentId} : segmentId ∈ WriteService.liveIds runtime ↔
      ∃ segment ∈ runtime.segments, segment.id = segmentId := by
  unfold WriteService.liveIds
  split
  · rename_i checkpoint hcheckpoint
    exact (h.runtime runtime hrunning).named checkpoint hcheckpoint segmentId
  · exact List.mem_map

theorem refers_sealed (h : Sound state store replay) (hseals : Seals store runtime segment)
    (hlast : PublishedLast store segment) :
    (WriteService.sealedCheckpoint state runtime segment).Refers state.collectionId
      store.dir.segments.files := by
  have hbacked := h.runtime runtime hseals.running
  have hpublished := mem_of_publishedLast hlast
  refine ⟨rfl, fun segmentId hmem => ?_, fun other hother hmem => ?_⟩
  · rcases List.mem_append.mp (Checkpoint.mem_segments_new.mp hmem) with hlive | hsingle
    · obtain ⟨old, hold, hsame⟩ := (h.mem_liveIds hseals.running).mp hlive
      exact ⟨old, hbacked.segments old hold, hsame⟩
    · exact ⟨segment, hpublished, (List.mem_singleton.mp hsingle).symm⟩
  · show other.maxSequence ≤ segment.maxSequence
    rcases List.mem_append.mp (Checkpoint.mem_segments_new.mp hmem) with hlive | hsingle
    · obtain ⟨old, hold, hsame⟩ := (h.mem_liveIds hseals.running).mp hlive
      rw [h.eq_of_id (hbacked.segments old hold) hother hsame.symm]
      exact h.le_sealed hseals old hold
    · rw [h.eq_of_id hpublished hother (List.mem_singleton.mp hsingle)]

theorem backed_sealed (h : Sound state store replay) (hseals : Seals store runtime segment)
    (hlast : PublishedLast store segment) :
    (WriteService.sealedRuntime runtime segment
      (WriteService.sealedCheckpoint state runtime segment)).Backed store.dir replay.entries := by
  have hbacked := h.runtime runtime hseals.running
  refine ⟨hbacked.config, fun other hother => ?_, fun checkpoint hcheckpoint segmentId => ?_,
    fun checkpoint hcheckpoint other hother => ?_, nofun, fun hne => absurd rfl hne⟩
  · rcases List.mem_append.mp hother with hold | hsingle
    · exact hbacked.segments other hold
    · rw [List.mem_singleton.mp hsingle]
      exact mem_of_publishedLast hlast
  · cases hcheckpoint
    have hids : segmentId ∈ (WriteService.sealedCheckpoint state runtime segment).segments ↔
        segmentId ∈ WriteService.liveIds runtime ∨ segmentId = segment.id := by
      rw [WriteService.sealedCheckpoint, Checkpoint.mem_segments_new, List.mem_append,
        List.mem_singleton]
    rw [hids, h.mem_liveIds hseals.running]
    constructor
    · rintro (⟨old, hold, hsame⟩ | rfl)
      · exact ⟨old, List.mem_append_left _ hold, hsame⟩
      · exact ⟨segment, List.mem_append_right _ (List.mem_singleton_self _), rfl⟩
    · rintro ⟨other, hother, hsame⟩
      rcases List.mem_append.mp hother with hold | hsingle
      · exact .inl ⟨other, hold, hsame⟩
      · rw [List.mem_singleton.mp hsingle] at hsame
        exact .inr hsame.symm
  · cases hcheckpoint
    show other.maxSequence ≤ segment.maxSequence
    rcases List.mem_append.mp hother with hold | hsingle
    · exact h.le_sealed hseals other hold
    · rw [List.mem_singleton.mp hsingle]

end Sealing

/-! ### Compaction -/

section Compaction

variable {runtime : CollectionRuntime} {replacement : Segment}

theorem compactSegment (h : Sound state store replay) (hcompacts : Compacts store runtime replacement)
    (hid : store.dir.segments.nextSegmentId = some replacement.id) :
    Sound state (store.updateDir fun dir =>
      { dir with segments := dir.segments.publish replacement }) replay := by
  have hbacked := h.runtime runtime hcompacts.running
  have hnumbered := h.numbered.runtime runtime hcompacts.running
  obtain ⟨-, segment, hsegment, hle⟩ := Segment.of_compactSegments hcompacts.replacement
    fun segment hsegment => (hnumbered.segments segment hsegment).1
  refine h.publish hid (h.numbered.compacts hcompacts).1
    (Segment.valid_compactSegments hcompacts.replacement fun other hother =>
      h.valid other (hbacked.segments other hother)) fun hnone => ?_
  obtain ⟨mutation, hmutation, hmaximum⟩ :=
    h.log.later hnone segment (hbacked.segments segment hsegment)
  exact ⟨mutation, hmutation, hle.trans hmaximum⟩

/-- The compacted segment is no later than what the runtime represents. -/
theorem le_representedSequence (h : Sound state store replay)
    (hcompacts : Compacts store runtime replacement) :
    replacement.maxSequence ≤ WriteService.representedSequence runtime := by
  have hnumbered := h.numbered.runtime runtime hcompacts.running
  obtain ⟨-, segment, hsegment, hle⟩ := Segment.of_compactSegments hcompacts.replacement
    fun segment hsegment => (hnumbered.segments segment hsegment).1
  refine hle.trans ?_
  unfold WriteService.representedSequence
  split
  · rename_i checkpoint hcheckpoint
    exact (h.runtime runtime hcompacts.running).bounded checkpoint hcheckpoint segment hsegment
  · exact le_maxOf (List.mem_map_of_mem hsegment)

theorem mem_compactedCheckpoint {segmentId : SegmentId} :
    segmentId ∈ (WriteService.compactedCheckpoint state runtime replacement).segments ↔
      segmentId = replacement.id := by
  rw [WriteService.compactedCheckpoint, Checkpoint.mem_segments_new, List.mem_singleton]

theorem refers_compacted (h : Sound state store replay)
    (hcompacts : Compacts store runtime replacement) (hlast : PublishedLast store replacement) :
    (WriteService.compactedCheckpoint state runtime replacement).Refers state.collectionId
      store.dir.segments.files := by
  have hpublished := mem_of_publishedLast hlast
  refine ⟨rfl, fun segmentId hmem => ?_, fun other hother hmem => ?_⟩
  · exact ⟨replacement, hpublished, (mem_compactedCheckpoint.mp hmem).symm⟩
  · rw [h.eq_of_id hpublished hother (mem_compactedCheckpoint.mp hmem)]
    exact h.le_representedSequence hcompacts

theorem backed_compacted (h : Sound state store replay)
    (hcompacts : Compacts store runtime replacement) (hlast : PublishedLast store replacement) :
    (WriteService.compactedRuntime runtime replacement
      (WriteService.compactedCheckpoint state runtime replacement)).Backed store.dir
        replay.entries := by
  have hbacked := h.runtime runtime hcompacts.running
  refine ⟨hbacked.config, fun other hother => ?_, fun checkpoint hcheckpoint segmentId => ?_,
    fun checkpoint hcheckpoint other hother => ?_, hbacked.mutable,
    fun hne => absurd hcompacts.sealed hne⟩
  · rw [List.mem_singleton.mp hother]
    exact mem_of_publishedLast hlast
  · cases hcheckpoint
    rw [mem_compactedCheckpoint]
    constructor
    · rintro rfl
      exact ⟨replacement, List.mem_singleton_self _, rfl⟩
    · rintro ⟨other, hother, hsame⟩
      rw [← hsame, List.mem_singleton.mp hother]
  · cases hcheckpoint
    rw [List.mem_singleton.mp hother]
    exact h.le_representedSequence hcompacts

/-- An id outside the checkpoint is one that neither the checkpoint nor the runtime needs. -/
theorem collect (h : Sound state store replay) {checkpoint : Checkpoint} {segmentId : SegmentId}
    (hcheckpointed : Checkpointed store runtime checkpoint) (hid : segmentId ∉ checkpoint.segments) :
    Sound state (store.updateDir fun dir =>
      { dir with segments := dir.segments.deleteSegment segmentId }) replay := by
  have hkept : ∀ segment ∈ store.dir.segments.files, segment.id ∈ checkpoint.segments →
      segment ∈ (store.dir.segments.deleteSegment segmentId).files := by
    intro segment hsegment hmem
    refine List.mem_filter.mpr ⟨hsegment, decide_eq_true fun heq => hid ?_⟩
    rwa [← heq]
  have hsublist : (store.dir.segments.deleteSegment segmentId).files.Sublist
      store.dir.segments.files := List.filter_sublist
  refine ⟨h.numbered.dir rfl fun segment hsegment => h.numbered.files segment (hsublist.subset
    hsegment), h.distinct.sublist (hsublist.map _), fun segment hsegment => h.valid segment
    (hsublist.subset hsegment), fun other hother => ?_, h.replays, ⟨h.log.accepted,
    fun hnone => ?_⟩, fun other hother => ?_⟩
  · obtain ⟨hcollection, hpresent, hbounded⟩ := h.checkpoint other hother
    have hsame : other = checkpoint := Option.some.inj (hother.symm.trans hcheckpointed.stored)
    refine ⟨hcollection, fun other hmem => ?_, fun segment hsegment hmem =>
      hbounded segment (hsublist.subset hsegment) hmem⟩
    obtain ⟨segment, hsegment, hnamed⟩ := hpresent other hmem
    refine ⟨segment, hkept segment hsegment ?_, hnamed⟩
    rw [hnamed, ← hsame]
    exact hmem
  · cases hnone.symm.trans hcheckpointed.stored
  · cases hcheckpointed.running.symm.trans hother
    obtain ⟨hconfig, hsegments, hnamed, hbounded, hmutable, hlatest⟩ := h.runtime _ hother
    refine ⟨hconfig, fun segment hsegment => hkept segment (hsegments segment hsegment) ?_, hnamed,
      hbounded, hmutable, hlatest⟩
    exact (hnamed checkpoint hcheckpointed.current segment.id).mpr ⟨segment, hsegment, rfl⟩

end Compaction

/-! ### The log -/

section Log

variable {config : CollectionConfig} {runtime : CollectionRuntime} {mutations : List WalMutation}
  {next : SequenceNumber} {log : Wal}

/-- Another log file, which replays to what the runtime and the segments need. -/
theorem setWal (h : Sound state store replay) {wal : Option Bytes} {replay' : Wal.ReplayResult}
    (hreplay : Wal.replayPath wal = .ok replay')
    (hlog : LogSound state.collectionId store.dir.config store.dir.checkpoint
      store.dir.segments.files replay'.entries)
    (hmutable : ∀ runtime, store.runtime = some runtime → ∀ mutation ∈ runtime.mutable,
      mutation ∈ replay'.entries) :
    Sound state (store.updateDir fun dir => { dir with wal := wal }) replay' := by
  refine ⟨h.numbered.dir rfl h.numbered.files, h.distinct, h.valid, h.checkpoint, hreplay, hlog,
    fun runtime hruntime => ?_⟩
  obtain ⟨hconfig, hsegments, hnamed, hbounded, -, hlatest⟩ := h.runtime runtime hruntime
  exact ⟨hconfig, hsegments, hnamed, hbounded, hmutable runtime hruntime, hlatest⟩

theorem replayPath_getD (path : Option Bytes) :
    Wal.replayPath path = Wal.decodeLog (path.getD []) := by
  cases path with
  | none => exact (Wal.decodeFrames_nil none).symm
  | some bytes => rfl

/-- Opening the log creates its file and changes nothing else. -/
theorem createWal (h : Sound state store replay)
    (hopens : Wal.openWithPolicy store.dir.wal .durable = .ok log) :
    Sound state (store.updateDir fun dir => { dir with wal := some log.file }) replay := by
  obtain ⟨opened, -, hlog⟩ := except_bind_ok.mp hopens
  cases hlog
  refine h.setWal ?_ h.log fun runtime hruntime => (h.runtime runtime hruntime).mutable
  have hreplays := h.replays
  rwa [replayPath_getD] at hreplays

/-- What an append writes. -/
theorem appends_encoded (happends : Appends state store config runtime mutations next log) :
    ∃ writer encoded, runtime.wal = some writer ∧ Wal.Increasing writer.lastSequence mutations ∧
      Wal.encodeFrames mutations = .ok encoded ∧ log.file = store.dir.wal.getD [] ++ encoded ∧
        log.lastSequence = Wal.lastSequenceOf writer.lastSequence mutations := by
  have hencodes := happends.log
  unfold WriteService.encodeAppend at hencodes
  split at hencodes
  · cases hencodes
  · rename_i writer hwriter
    obtain ⟨-, -, hencodes⟩ := except_bind_ok.mp hencodes
    split at hencodes
    · rename_i other happended
      cases hencodes
      obtain ⟨hincreasing, encoded, hencoded, rfl⟩ := Wal.appendBatch_done_iff.mp happended
      exact ⟨writer, encoded, hwriter, hincreasing, hencoded, rfl, rfl⟩
    · cases hencodes

theorem accepted_of_appends (h : Sound state store replay)
    (happends : Appends state store config runtime mutations next log) :
    ∀ mutation ∈ mutations, mutation.Accepted state.collectionId store.dir.config := by
  have hconfig : config = store.dir.config := Option.some.inj
    (happends.writable.symm.trans (h.runtime runtime happends.running).config)
  obtain ⟨batch, haccepted, hnumbered⟩ := happends.batch
  rw [← hconfig]
  exact accepted_numberFrom haccepted hnumbered

/-- A part of the frames behind a clean log replays as that part. -/
theorem replays_written (h : Sound state store replay)
    (happends : Appends state store config runtime mutations next log)
    (hclean : mutations ≠ [] → store.CleanLog) {written : Bytes}
    (hkept : store.dir.wal.getD [] <+: written) (hwritten : written <+: log.file) :
    ∃ result : Wal.ReplayResult, result.entries <+: mutations ∧ (written = log.file → result.entries = mutations) ∧
      Wal.replayPath (some written) = .ok (result.prepend replay.entries) := by
  obtain ⟨writer, encoded, hwriter, hincreasing, hencoded, hfile, -⟩ := appends_encoded happends
  obtain ⟨part, rfl⟩ := hkept
  rw [hfile, List.prefix_append_right_inj] at hwritten
  have hreplays := h.replays
  rw [replayPath_getD] at hreplays
  by_cases hnone : mutations = []
  · subst hnone
    cases hencoded
    rw [List.prefix_nil.mp hwritten, List.append_nil]
    refine ⟨⟨[], replay.ignoredTailBytes⟩, List.prefix_rfl, fun _ => rfl, ?_⟩
    rw [Wal.ReplayResult.prepend, List.append_nil]
    exact hreplays
  · obtain ⟨htail, hlast⟩ := hclean hnone runtime writer replay happends.running hwriter h.replays
    obtain ⟨entries, tail⟩ := replay
    cases htail
    rw [← hlast] at hincreasing
    have hbehind := Wal.decodeFrames_append hreplays part
    obtain ⟨result, hresult, hpart⟩ := Wal.decodeFrames_prefix hencoded hincreasing hwritten
    rw [hresult] at hbehind
    refine ⟨result, hpart, fun hwhole => ?_, hbehind⟩
    rw [hfile, List.append_cancel_left_eq] at hwhole
    have hframes := Wal.decodeFrames_frames hencoded hincreasing []
    rw [List.append_nil, Wal.decodeFrames_nil, ← hwhole, hresult] at hframes
    rw [Except.ok.inj hframes, Wal.ReplayResult.prepend, List.append_nil]

/-- What an append leaves in the log, be it whole or torn. -/
theorem write (h : Sound state store replay)
    (happends : Appends state store config runtime mutations next log)
    (hclean : mutations ≠ [] → store.CleanLog) {written : Bytes}
    (hkept : store.dir.wal.getD [] <+: written) (hwritten : written <+: log.file) :
    ∃ replay', Sound state (store.updateDir fun dir => { dir with wal := some written }) replay' ∧
      replay.entries ⊆ replay'.entries ∧ (written = log.file → mutations ⊆ replay'.entries) := by
  obtain ⟨result, hpart, hwhole, hreplay⟩ := h.replays_written happends hclean hkept hwritten
  refine ⟨result.prepend replay.entries, h.setWal hreplay ⟨fun mutation hmutation => ?_,
    fun hnone segment hsegment => ?_⟩ fun other hother mutation hmutation => ?_,
    List.subset_append_left _ _, fun heq => ?_⟩
  · rcases List.mem_append.mp hmutation with hold | hnew
    · exact h.log.accepted mutation hold
    · exact h.accepted_of_appends happends mutation (hpart.subset hnew)
  · obtain ⟨mutation, hmutation, hle⟩ := h.log.later hnone segment hsegment
    exact ⟨mutation, List.mem_append_left _ hmutation, hle⟩
  · exact List.mem_append_left _ ((h.runtime other hother).mutable mutation hmutation)
  · intro mutation hmutation
    rw [← hwhole heq] at hmutation
    exact List.mem_append_right _ hmutation

theorem prefix_of_appends (happends : Appends state store config runtime mutations next log) :
    store.dir.wal.getD [] <+: log.file := by
  obtain ⟨writer, encoded, -, -, -, hfile, -⟩ := appends_encoded happends
  rw [hfile]
  exact List.prefix_append ..

/-- Numbered mutations are no earlier than what the runtime holds. -/
theorem le_of_appends (h : Sound state store replay)
    (happends : Appends state store config runtime mutations next log) :
    ∀ segment ∈ runtime.segments, ∀ mutation ∈ mutations,
      segment.maxSequence ≤ mutation.sequenceNumber := by
  intro segment hsegment mutation hmutation
  obtain ⟨batch, -, hnumbered⟩ := happends.batch
  have hfrom := ((numberFrom_issued hnumbered).2 mutation hmutation).1
  have hissued := ((h.numbered.runtime runtime happends.running).segments segment hsegment).2
  rcases hissued with hlt | hlast
  · exact hlt.le.trans hfrom
  · refine le_trans ?_ hfrom
    rw [UInt64.le_iff_toNat_le, hlast]
    have hbound := segment.maxSequence.toNat_lt
    unfold maxSequence
    omega

end Log

/-! ### Recovery -/

section Recovery

theorem mem_unsealed {config : CollectionConfig} {checkpointSequence : SequenceNumber}
    {entries mutable : List WalMutation}
    (h : AppState.unsealed config checkpointSequence entries = .ok mutable) {mutation : WalMutation} :
    mutation ∈ mutable ↔ mutation ∈ entries ∧ checkpointSequence < mutation.sequenceNumber := by
  induction entries generalizing mutable with
  | nil =>
    cases h
    simp
  | cons entry rest ih =>
    unfold AppState.unsealed at h
    split at h
    · cases h
    · split at h
      · rename_i hsealed
        rw [ih h, List.mem_cons]
        constructor
        · rintro ⟨hmem, hlater⟩
          exact ⟨.inr hmem, hlater⟩
        · rintro ⟨rfl | hmem, hlater⟩
          · exact absurd hsealed (not_le.mpr hlater)
          · exact ⟨hmem, hlater⟩
      · rename_i hlater
        obtain ⟨-, -, h⟩ := except_bind_ok.mp h
        obtain ⟨later, hrest, h⟩ := except_bind_ok.mp h
        cases h
        rw [List.mem_cons, List.mem_cons, ih hrest]
        constructor
        · rintro (rfl | ⟨hmem, hnewer⟩)
          · exact ⟨.inl rfl, not_le.mp hlater⟩
          · exact ⟨.inr hmem, hnewer⟩
        · rintro ⟨rfl | hmem, hnewer⟩
          · exact .inl rfl
          · exact .inr ⟨hmem, hnewer⟩

theorem openNamed_ok {id : CollectionId} {segments : SegmentStore} {checkpoint : Checkpoint}
    {segmentId : SegmentId} {segment : Segment}
    (h : AppState.openNamed id segments checkpoint segmentId = .ok segment) :
    segment.id = segmentId ∧ segment.maxSequence ≤ checkpoint.sequenceNumber := by
  obtain ⟨opened, hopened, h⟩ := except_bind_ok.mp h
  have hfound := mapError_ok_iff.mp hopened
  unfold SegmentStore.openSegment at hfound
  split at hfound
  · rename_i other hother
    cases hfound
    split at h
    · cases h
    · split at h
      · cases h
      · rename_i hsequence
        cases h
        exact ⟨by simpa using List.find?_some hother, not_lt.mp hsequence⟩
  · cases hfound

/-- The live segments are those that the checkpoint names. -/
theorem liveSegments_named {dir : CollectionDir F} {segments : List Segment} {checkpoint : Checkpoint}
    (h : AppState.liveSegments dir = .ok segments) (hcheckpoint : dir.checkpoint = some checkpoint) :
    (∀ segmentId, segmentId ∈ checkpoint.segments ↔
        ∃ segment ∈ segments, segment.id = segmentId) ∧
      ∀ segment ∈ segments, segment.maxSequence ≤ checkpoint.sequenceNumber := by
  unfold AppState.liveSegments at h
  rw [hcheckpoint] at h
  dsimp only at h
  split at h
  · cases h
  · obtain ⟨hfrom, hinto⟩ := mem_of_except_mapM h
    refine ⟨fun segmentId => ⟨fun hmem => ?_, ?_⟩, fun segment hsegment => ?_⟩
    · obtain ⟨segment, hsegment, hopened⟩ := hinto segmentId hmem
      exact ⟨segment, hsegment, (openNamed_ok hopened).1⟩
    · rintro ⟨segment, hsegment, rfl⟩
      obtain ⟨segmentId, hmem, hopened⟩ := hfrom segment hsegment
      rwa [(openNamed_ok hopened).1]
    · obtain ⟨segmentId, -, hopened⟩ := hfrom segment hsegment
      exact (openNamed_ok hopened).2

variable [DecidableEq F] {S : Type} [ScoreArith S] {runtime : CollectionRuntime}

theorem backed_recovered (h : Sound state store replay) (hrecovers : Recovers S state store runtime) :
    runtime.Backed store.dir replay.entries := by
  obtain ⟨log, opened, hopened, -, hunsealed⟩ := hrecovers.log
  have hconfig : runtime.config = some store.dir.config :=
    congrArg CollectionRuntime.config hrecovers.writable
  have hcheckpoint : runtime.checkpoint = store.dir.checkpoint :=
    congrArg CollectionRuntime.checkpoint hrecovers.writable
  have hsame : opened = replay := by
    obtain ⟨first, -, hlog⟩ := except_bind_ok.mp hopened.opens
    cases hlog
    have hreplays := h.replays
    rw [replayPath_getD] at hreplays
    exact Except.ok.inj (hopened.replays.symm.trans hreplays)
  subst hsame
  have hsegments := mem_of_liveSegments hrecovers.segments
  refine ⟨hconfig, hsegments, fun checkpoint hsome => ?_, fun checkpoint hsome => ?_,
    fun mutation hmutation => ((mem_unsealed hunsealed).mp hmutation).1,
    fun hne segment hsegment => ?_⟩
  · exact (liveSegments_named hrecovers.segments (hcheckpoint.symm.trans hsome)).1
  · exact (liveSegments_named hrecovers.segments (hcheckpoint.symm.trans hsome)).2
  · obtain ⟨first, hfirst⟩ := List.exists_mem_of_ne_nil _ hne
    have hlater := ((mem_unsealed hunsealed).mp hfirst).2
    cases hstored : store.dir.checkpoint with
    | some checkpoint =>
      -- Everything that is not sealed is later than the checkpoint.
      rw [hstored] at hlater
      have hle := (liveSegments_named hrecovers.segments hstored).2 segment hsegment
      exact ⟨first, hfirst, hle.trans (le_of_lt hlater)⟩
    | none =>
      obtain ⟨mutation, hmutation, hle⟩ := h.log.later hstored segment (hsegments segment hsegment)
      by_cases hzero : 0 < mutation.sequenceNumber
      · refine ⟨mutation, (mem_unsealed hunsealed).mpr ⟨hmutation, ?_⟩, hle⟩
        rw [hstored]
        exact hzero
      · exact ⟨first, hfirst, (hle.trans (not_lt.mp hzero)).trans UInt64.zero_le⟩

end Recovery

end Sound

/-! ### Logs in which every append is whole -/

/-- The file ends between two frames and the writer, if there is one, knows the last. -/
structure LogExact (store : Store F) (entries : List WalMutation) : Prop where
  replays : Wal.replayPath store.dir.wal = .ok ⟨entries, 0⟩
  writer : ∀ runtime writer, store.runtime = some runtime → runtime.wal = some writer →
    Wal.lastSequenceOf none entries = writer.lastSequence

namespace LogExact

variable {entries : List WalMutation}

theorem cleanLog (h : LogExact store entries) : store.CleanLog := by
  intro runtime writer replay hruntime hwriter hreplay
  cases h.replays.symm.trans hreplay
  exact ⟨rfl, h.writer runtime writer hruntime hwriter⟩

theorem created {config : CollectionConfig} : LogExact (.created state config) [] := by
  refine ⟨Wal.decodeFrames_nil none, fun runtime writer hruntime hwriter => ?_⟩
  cases hruntime
  cases hwriter
  rfl

theorem down (h : LogExact store entries) : LogExact store.down entries := by
  refine ⟨h.replays, fun runtime writer hruntime => ?_⟩
  have hnone : store.down.runtime = none := rfl
  cases hnone.symm.trans hruntime

/-- Other files may change as long as the log does not. -/
theorem dir (h : LogExact store entries) {update : CollectionDir F → CollectionDir F}
    (hwal : (update store.dir).wal = store.dir.wal) : LogExact (store.updateDir update) entries := by
  refine ⟨?_, h.writer⟩
  have hreplays := h.replays
  rwa [← hwal] at hreplays

theorem update (h : LogExact store entries) {update : CollectionRuntime → CollectionRuntime}
    (hwal : ∀ runtime writer, store.runtime = some runtime → (update runtime).wal = some writer →
      Wal.lastSequenceOf none entries = writer.lastSequence) :
    LogExact (store.updateRuntime update) entries := by
  refine ⟨h.replays, fun runtime writer hruntime hwriter => ?_⟩
  obtain ⟨before, hbefore, rfl⟩ := Option.map_eq_some_iff.mp hruntime
  exact hwal before writer hbefore hwriter

/-- The log that is opened has the sequence number of the last frame. -/
theorem lastSequence_opened (h : LogExact store entries) {log : Wal}
    (hopens : Wal.openWithPolicy store.dir.wal .durable = .ok log) :
    log.file = store.dir.wal.getD [] ∧ Wal.lastSequenceOf none entries = log.lastSequence := by
  obtain ⟨replay, hreplay, hlog⟩ := except_bind_ok.mp hopens
  cases h.replays.symm.trans hreplay
  cases hlog
  exact ⟨rfl, (Wal.getLast?_sequenceNumber entries).symm⟩

theorem replays_append (h : LogExact store entries) {config : CollectionConfig}
    {runtime : CollectionRuntime} {mutations : List WalMutation} {next : SequenceNumber} {log : Wal}
    (happends : Appends state store config runtime mutations next log) :
    Wal.replayPath (some log.file) = .ok ⟨entries ++ mutations, 0⟩ ∧
      Wal.lastSequenceOf none (entries ++ mutations) = log.lastSequence := by
  obtain ⟨writer, encoded, hwriter, hincreasing, hencoded, hfile, hlast⟩ :=
    Sound.appends_encoded happends
  have hwrote := h.writer runtime writer happends.running hwriter
  rw [← hwrote] at hincreasing hlast
  have hreplays := h.replays
  rw [Sound.replayPath_getD] at hreplays
  have hbehind := Wal.decodeFrames_append hreplays encoded
  have hframes := Wal.decodeFrames_frames hencoded hincreasing []
  rw [List.append_nil, Wal.decodeFrames_nil] at hframes
  rw [hframes, ← hfile] at hbehind
  refine ⟨hbehind.trans ?_, ?_⟩
  · simp only [Except.map, Wal.ReplayResult.prepend, List.append_nil]
  · rw [Wal.lastSequenceOf_append, hlast]

end LogExact

/-! ### Runs -/

section Runs

variable [DecidableEq F] (S : Type) [ScoreArith S] (state : AppState F)

/-- A step of the store, with the mutations whose frames it writes. An append that fails or
is cut off by a crash leaves any part of its frames in the log. -/
inductive Move : Store F → List WalMutation → Store F → Prop
  | step {store next : Store F} {logged : List WalMutation}
      (hstep : Step S state store logged next) : Move store logged next
  | tear {store : Store F} {config : CollectionConfig} {runtime : CollectionRuntime}
      {mutations : List WalMutation} {next : SequenceNumber} {log : Wal} {written : Bytes}
      (happends : Appends state store config runtime mutations next log)
      (hkept : store.dir.wal.getD [] <+: written) (hwritten : written <+: log.file) :
      Move store mutations (store.updateDir fun dir => { dir with wal := some written })

/-- Frames are written behind a clean log only. -/
def UndisturbedMove (store next : Store F) : Prop :=
  ∃ mutations, Move S state store mutations next ∧ (mutations ≠ [] → store.CleanLog)

def UndisturbedRun : Store F → Store F → Prop := Relation.ReflTransGen (UndisturbedMove S state)

variable {S state} {next : Store F} {replay : Wal.ReplayResult} {logged : List WalMutation}

/-- A step of a sound store leaves it sound as long as it does not write behind a torn frame. -/
theorem Sound.step (h : Sound state store replay) (hstep : Step S state store logged next)
    (hclean : logged ≠ [] → store.CleanLog) : ∃ replay', Sound state next replay' := by
  have hnumbered := h.numbered.step hstep
  cases hstep with
  | stop => exact ⟨replay, h.down⟩
  | append happends =>
    obtain ⟨replay', hwritten, hold, hnew⟩ :=
      h.write happends hclean (prefix_of_appends happends) List.prefix_rfl
    refine ⟨replay', hwritten.update hnumbered fun runtime hruntime hbacked => ?_⟩
    cases happends.running.symm.trans hruntime
    have hbefore := h.runtime _ happends.running
    refine ⟨hbacked.config, hbacked.segments, hbacked.named, hbacked.bounded,
      fun mutation hmutation => ?_, fun _ segment hsegment => ?_⟩
    · rcases List.mem_append.mp hmutation with hmem | hadded
      · exact hbacked.mutable mutation hmem
      · exact hnew rfl hadded
    · by_cases hempty : logged = []
      · rename_i hne
        subst hempty
        rw [List.append_nil] at hne
        obtain ⟨mutation, hmutation, hle⟩ := hbefore.latest hne segment hsegment
        exact ⟨mutation, List.mem_append_left _ hmutation, hle⟩
      · obtain ⟨mutation, hmutation⟩ := List.exists_mem_of_ne_nil _ hempty
        exact ⟨mutation, List.mem_append_right _ hmutation,
          h.le_of_appends happends segment hsegment mutation hmutation⟩
  | appendThenStop happends =>
    obtain ⟨replay', hwritten, -⟩ :=
      h.write happends hclean (prefix_of_appends happends) List.prefix_rfl
    exact ⟨replay', hwritten.down⟩
  | sealSegment hseals hid => exact ⟨replay, h.sealSegment hseals hid⟩
  | sealCheckpoint hseals hlast => exact ⟨replay, h.setCheckpoint (h.refers_sealed hseals hlast)⟩
  | sealRuntime hseals hlast =>
    exact ⟨replay, h.update hnumbered fun _ _ _ => h.backed_sealed hseals hlast⟩
  | compactSegment hcompacts hid => exact ⟨replay, h.compactSegment hcompacts hid⟩
  | compactCheckpoint hcompacts hlast =>
    exact ⟨replay, h.setCheckpoint (h.refers_compacted hcompacts hlast)⟩
  | compactRuntime hcompacts hlast =>
    exact ⟨replay, h.update hnumbered fun _ _ _ => h.backed_compacted hcompacts hlast⟩
  | collect hcheckpointed hid => exact ⟨replay, h.collect hcheckpointed hid⟩
  | closeWal =>
    exact ⟨replay, h.update hnumbered fun _ _ hbacked => ⟨hbacked.config, hbacked.segments,
      hbacked.named, hbacked.bounded, hbacked.mutable, hbacked.latest⟩⟩
  | reclaimWal hcheckpointed hsealed =>
    refine ⟨⟨[], 0⟩, h.setWal (Wal.decodeFrames_nil none) ⟨nofun, fun hnone => ?_⟩
      fun runtime hruntime mutation hmutation => ?_⟩
    · cases hnone.symm.trans hcheckpointed.stored
    · cases hcheckpointed.running.symm.trans hruntime
      rw [hsealed] at hmutation
      cases hmutation
  | createWal hopens => exact ⟨replay, h.createWal hopens⟩
  | openWal =>
    exact ⟨replay, h.update hnumbered fun _ _ hbacked => ⟨hbacked.config, hbacked.segments,
      hbacked.named, hbacked.bounded, hbacked.mutable, hbacked.latest⟩⟩
  | publishHnsw => exact ⟨replay, h.hnsw _⟩
  | setHnsw =>
    exact ⟨replay, h.update hnumbered fun _ _ hbacked => ⟨hbacked.config, hbacked.segments,
      hbacked.named, hbacked.bounded, hbacked.mutable, hbacked.latest⟩⟩
  | recover hrecovers =>
    refine ⟨replay, hnumbered, h.distinct, h.valid, h.checkpoint, h.replays, h.log,
      fun runtime hruntime => ?_⟩
    cases hruntime
    exact h.backed_recovered hrecovers

theorem Sound.move (h : Sound state store replay) (hmove : UndisturbedMove S state store next) :
    ∃ replay', Sound state next replay' := by
  obtain ⟨mutations, hmove, hclean⟩ := hmove
  cases hmove with
  | step hstep => exact h.step hstep hclean
  | tear happends hkept hwritten =>
    obtain ⟨replay', hsound, -⟩ := h.write happends hclean hkept hwritten
    exact ⟨replay', hsound⟩

theorem Sound.run (h : Sound state store replay) (hrun : UndisturbedRun S state store next) :
    ∃ replay', Sound state next replay' := by
  induction hrun with
  | refl => exact ⟨replay, h⟩
  | tail _ hmove ih =>
    obtain ⟨middle, hmiddle⟩ := ih
    exact hmiddle.move hmove

/-- Whole appends leave the log exact, and so does everything else. -/
theorem LogExact.step {entries : List WalMutation} (h : LogExact store entries) (hstep : Step S state store logged next) :
    ∃ entries', LogExact next entries' := by
  cases hstep with
  | stop => exact ⟨entries, h.down⟩
  | append happends =>
    obtain ⟨hreplays, hlast⟩ := h.replays_append happends
    refine ⟨entries ++ logged, hreplays, fun runtime writer hruntime hwriter => ?_⟩
    obtain ⟨before, -, rfl⟩ := Option.map_eq_some_iff.mp hruntime
    cases hwriter
    exact hlast
  | appendThenStop happends =>
    refine ⟨entries ++ logged, (h.replays_append happends).1, fun runtime writer hruntime => ?_⟩
    cases hruntime
  | sealSegment => exact ⟨entries, h.dir rfl⟩
  | sealCheckpoint => exact ⟨entries, h.dir rfl⟩
  | sealRuntime hseals =>
    exact ⟨entries, h.update fun _ writer _ hwriter => h.writer _ writer hseals.running hwriter⟩
  | compactSegment => exact ⟨entries, h.dir rfl⟩
  | compactCheckpoint => exact ⟨entries, h.dir rfl⟩
  | compactRuntime hcompacts =>
    exact ⟨entries, h.update fun _ writer _ hwriter => h.writer _ writer hcompacts.running hwriter⟩
  | collect => exact ⟨entries, h.dir rfl⟩
  | closeWal => exact ⟨entries, h.update fun _ _ _ => nofun⟩
  | reclaimWal hcheckpointed _ hclosed =>
    refine ⟨[], Wal.decodeFrames_nil none, fun runtime writer hruntime hwriter => ?_⟩
    cases hcheckpointed.running.symm.trans hruntime
    cases hclosed.symm.trans hwriter
  | createWal hopens =>
    refine ⟨entries, ?_, h.writer⟩
    have hreplays := h.replays
    rw [Sound.replayPath_getD, ← (h.lastSequence_opened hopens).1] at hreplays
    exact hreplays
  | openWal hopens =>
    refine ⟨entries, h.update fun _ writer _ hwriter => ?_⟩
    cases hwriter
    exact (h.lastSequence_opened hopens).2
  | publishHnsw => exact ⟨entries, h.dir rfl⟩
  | setHnsw =>
    exact ⟨entries, h.update fun runtime writer hruntime hwriter =>
      h.writer runtime writer hruntime hwriter⟩
  | recover hrecovers =>
    refine ⟨entries, h.replays, fun runtime writer hruntime hwriter => ?_⟩
    cases hruntime
    obtain ⟨log, _, hopened, hwal, -⟩ := hrecovers.log
    cases hwal.symm.trans hwriter
    exact (h.lastSequence_opened hopened.opens).2

/-- A run in which every append is whole never writes behind a torn frame. -/
theorem undisturbedRun_of_steps {entries : List WalMutation} (h : LogExact store entries)
    (hsteps : Steps S state store logged next) :
    UndisturbedRun S state store next ∧ ∃ entries', LogExact next entries' := by
  induction hsteps with
  | refl => exact ⟨.refl, entries, h⟩
  | tail _ hstep ih =>
    obtain ⟨hrun, middle, hmiddle⟩ := ih
    exact ⟨hrun.tail ⟨_, .step hstep, fun _ => hmiddle.cleanLog⟩, hmiddle.step hstep⟩

end Runs

end StoreStep

end Ketebe
