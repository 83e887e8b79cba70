import Ketebe.CollectionSession
import Ketebe.Compaction
import Ketebe.DocumentChunks
import Ketebe.StoreNumbers

/-!
Replacing a document. After a replacement the visible records of the parent are the new
chunks, and no record of another parent has changed, unless it carried the id of a new
chunk: a chunk object and an id can be written by any client.
-/
namespace Ketebe

open Lib.ByteCodec Lib.LatestVersion Lib.Durable Lib.Durable.Program Lib.Runs

/-! ### Parents -/

section Parents

variable {record : Record} {parent other : RecordId}

theorem parent_eq (hkind : parentType parent = parentType other)
    (htext : parentText parent = parentText other) : parent = other := by
  have hkinds : "string" ≠ "u64" := by decide
  cases parent with
  | string value hvalue =>
    cases other with
    | string text hother =>
      cases htext
      rfl
    | unsigned number => exact absurd hkind hkinds
  | unsigned value =>
    cases other with
    | string text hother => exact absurd hkind.symm hkinds
    | unsigned number =>
      cases UInt64.toNat_inj.mp (Nat.repr_injective htext)
      rfl

theorem recordBelongsToParent_iff : recordBelongsToParent record parent ↔
    ∃ chunk, record.metadata.get chunkMetadataKey = some (.object chunk) ∧
      getField "parent_type" chunk = some (.string (parentType parent)) ∧
      getField "parent_id" chunk = some (.string (parentText parent)) := by
  unfold recordBelongsToParent
  constructor
  · intro h
    split at h
    · rename_i chunk hchunk
      split at h
      · rename_i kind text hkind htext
        obtain ⟨rfl, rfl⟩ := of_decide_eq_true h
        exact ⟨chunk, hchunk, hkind, htext⟩
      · cases h
    · cases h
  · rintro ⟨chunk, hchunk, hkind, htext⟩
    rw [hchunk]
    dsimp only
    rw [hkind, htext]
    exact decide_eq_true ⟨rfl, rfl⟩

/-- A record has one parent. -/
theorem parent_unique (h : recordBelongsToParent record parent)
    (hother : recordBelongsToParent record other) : parent = other := by
  obtain ⟨chunk, hchunk, hkind, htext⟩ := recordBelongsToParent_iff.mp h
  obtain ⟨chunk', hchunk', hkind', htext'⟩ := recordBelongsToParent_iff.mp hother
  cases hchunk.symm.trans hchunk'
  exact parent_eq (MetadataValue.string.inj (Option.some.inj (hkind.symm.trans hkind')))
    (MetadataValue.string.inj (Option.some.inj (htext.symm.trans htext')))

theorem belongs_stamped {ordinal : ℕ} {content : ChunkContent} {generation : SequenceNumber}
    (h : record.metadata = ((chunkRecord parent ordinal content).stamped generation).metadata) :
    recordBelongsToParent record parent := by
  have hchunk : record.metadata.get chunkMetadataKey = some (.object
      ((chunkRecord parent ordinal content).chunk.insert "generation"
        ⟨.number (.ofUInt64 generation), trivial⟩).fields) := by
    rw [h]
    exact getField_insertField.trans (if_pos rfl)
  refine recordBelongsToParent_iff.mpr ⟨_, hchunk, ?_, ?_⟩
  · exact getField_insertField.trans <| (if_neg (by decide)).trans <|
      getField_insertField.trans <| (if_neg (by decide)).trans <|
        getField_insertField.trans (if_pos rfl)
  · exact getField_insertField.trans <| (if_neg (by decide)).trans <|
      getField_insertField.trans (if_pos rfl)

end Parents

/-! ### What queries see -/

section Queries

variable {F : Type} {state : AppState F} {store next : Store F} {runtime : CollectionRuntime}
  {batch : List PendingMutation} {segments : List Segment}

/-- The latest versions of a list of segments. -/
abbrev latestOf (segments : List Segment) : Table RecordId SequenceNumber (Option Record) :=
  fold (segments.flatMap Segment.versions)

theorem fromMutations_withId {id other : SegmentId} {mutations : List WalMutation}
    {segment : Segment} (h : Segment.fromMutations id mutations = .ok segment) :
    Segment.fromMutations other mutations = .ok { segment with id := other } := by
  unfold Segment.fromMutations at h ⊢
  split at h
  · cases h
  · obtain ⟨draft, hdraft, h⟩ := except_bind_ok.mp h
    cases h
    exact except_bind_ok.mpr ⟨draft, hdraft, rfl⟩

/-- A segment of increasing mutations folds to what they write. -/
theorem fold_fromMutations {id : SegmentId} {mutations : List WalMutation} {segment : Segment}
    (h : Segment.fromMutations id mutations = .ok segment) :
    fold segment.versions = fold (Segment.writes mutations) := by
  obtain ⟨-, hsummary⟩ := Segment.fromMutations_summarizes h
  exact hsummary.covers.fold_eq (Segment.functional_writes hsummary.increasing)

/-- What queries read: the live segments, then the mutable list. -/
theorem latestOf_querySegments (h : runtime.querySegments = .ok segments) :
    latestOf segments =
      fold (runtime.segments.flatMap Segment.versions ++ Segment.writes runtime.mutable) := by
  unfold CollectionRuntime.querySegments at h
  split at h
  · rename_i hempty
    cases h
    rw [hempty, Segment.writes, List.map_nil, List.append_nil]
  · obtain ⟨segment, hsegment, h⟩ := except_bind_ok.mp h
    cases h
    refine Std.ExtTreeMap.ext_getElem? fun key => ?_
    rw [latestOf, List.flatMap_append, List.flatMap_singleton, fold_append, fold_append,
      fold_fromMutations hsegment]

/-- A collection can be queried as long as its mutable list is one of a segment. -/
theorem querySegments_exists (hincreasing : Wal.Increasing none runtime.mutable)
    {id : CollectionId} (hcollection : ∀ mutation ∈ runtime.mutable, mutation.collectionId = id) :
    ∃ segments, runtime.querySegments = .ok segments := by
  unfold CollectionRuntime.querySegments
  split
  · exact ⟨_, rfl⟩
  · rename_i hnonempty
    obtain ⟨segment, hsegment, -⟩ :=
      Segment.fromMutations_exists (UInt64.ofNat maxSequence) hnonempty hincreasing hcollection
    exact ⟨_, except_bind_ok.mpr ⟨segment, hsegment, rfl⟩⟩

theorem increasing_of_querySegments (h : runtime.querySegments = .ok segments) :
    Wal.Increasing none runtime.mutable := by
  unfold CollectionRuntime.querySegments at h
  split at h
  · rename_i hempty
    rw [hempty]
    trivial
  · obtain ⟨segment, hsegment, -⟩ := except_bind_ok.mp h
    exact (Segment.fromMutations_summarizes hsegment).2.increasing

/-- Sealing changes nothing for queries. -/
theorem latestOf_sealed {after : CollectionRuntime} (h : StoreStep.SealedInto runtime after)
    (hquery : runtime.querySegments = .ok segments) :
    ∃ sealed, after.querySegments = .ok sealed ∧ latestOf sealed = latestOf segments := by
  cases h with
  | empty => exact ⟨segments, hquery, rfl⟩
  | segment hsegment =>
    refine ⟨_, if_pos rfl, ?_⟩
    refine Std.ExtTreeMap.ext_getElem? fun key => ?_
    rw [latestOf_querySegments hquery, latestOf]
    show (fold ((runtime.segments ++ [_]).flatMap Segment.versions))[key]? = _
    rw [List.flatMap_append, List.flatMap_singleton, fold_append, fold_append,
      fold_fromMutations hsegment]

theorem increasing_of_encodeAppend {dir : CollectionDir F} {mutations : List WalMutation} {log : Wal}
    (h : WriteService.encodeAppend runtime dir mutations = .ok log) :
    ∃ last, Wal.Increasing last mutations := by
  unfold WriteService.encodeAppend at h
  split at h
  · cases h
  · rename_i writer _
    obtain ⟨-, -, h⟩ := except_bind_ok.mp h
    split at h
    · rename_i hdone
      exact ⟨_, (Wal.appendBatch_done_iff.mp hdone).1⟩
    · cases h

/-- A number that has been given out is below the ones to come, if there are any. -/
theorem lt_of_issued {sequence last : SequenceNumber} (h : SequenceNumber.Issued last sequence)
    (hlast : last.toNat < maxSequence) : sequence < last :=
  h.resolve_right hlast.ne

/-- What is numbered now comes behind the mutable list. -/
theorem increasing_append_numbered {id : CollectionId} {previous : Option SequenceNumber}
    {mutations : List WalMutation} (hnumbered : runtime.Numbered id)
    (hlast : runtime.nextSequence.toNat < maxSequence)
    (hold : Wal.Increasing none runtime.mutable) (hnew : Wal.Increasing previous mutations)
    (hfrom : ∀ mutation ∈ mutations, runtime.nextSequence ≤ mutation.sequenceNumber) :
    Wal.Increasing none (runtime.mutable ++ mutations) := by
  refine Wal.increasing_iff_pairwise.mpr ⟨fun _ _ => nofun, List.pairwise_append.mpr
    ⟨(Wal.increasing_iff_pairwise.mp hold).2, (Wal.increasing_iff_pairwise.mp hnew).2,
      fun earlier hearlier later hlater => ?_⟩⟩
  exact (lt_of_issued (hnumbered.mutable earlier hearlier).2 hlast).trans_le (hfrom later hlater)

/-- A version that queries read has a number that has been given out. -/
theorem issued_of_versions {id : CollectionId} (hnumbered : runtime.Numbered id) {v : RecordVersion}
    (hv : v ∈ runtime.segments.flatMap Segment.versions ++ Segment.writes runtime.mutable) :
    SequenceNumber.Issued runtime.nextSequence v.sequence := by
  rcases List.mem_append.mp hv with hsealed | hmutable
  · obtain ⟨segment, hsegment, hversion⟩ := List.mem_flatMap.mp hsealed
    obtain ⟨hof, hissued⟩ := hnumbered.segments segment hsegment
    exact hissued.mono (hof.bounded v hversion)
  · obtain ⟨mutation, hmutation, rfl⟩ := List.mem_map.mp hmutable
    rw [WalMutation.version_sequence]
    exact (hnumbered.mutable mutation hmutation).2

/-- After a write, queries read what it wrote, and what they read before otherwise. -/
theorem latestOf_wrote {id : CollectionId} {config : CollectionConfig}
    (hnumbered : runtime.Numbered id) (hlast : runtime.nextSequence.toNat < maxSequence)
    (haccepted : ∀ pending ∈ batch, pending.Accepted id config)
    (hquery : runtime.querySegments = .ok segments)
    (hwrote : StoreStep.Wrote store runtime batch next) :
    ∃ after written, next.runtime = some after ∧ after.querySegments = .ok written ∧
      ∀ key : RecordId, (latestOf written)[key]? =
        (fold (Segment.writes (numberFrom runtime.nextSequence batch).1))[key]?.or
          (latestOf segments)[key]? := by
  obtain ⟨log, after, hlog, hafter, appended, hsealed, happended⟩ := hwrote
  rcases hnumbers : numberFrom runtime.nextSequence batch with ⟨mutations, final⟩
  rw [hnumbers] at hlog happended
  obtain ⟨previous, hincreasing⟩ := increasing_of_encodeAppend hlog
  have hfrom : ∀ mutation ∈ mutations, runtime.nextSequence ≤ mutation.sequenceNumber :=
    fun mutation hmutation => ((numberFrom_issued hnumbers).2 mutation hmutation).1
  have hmutable : appended.mutable = runtime.mutable ++ mutations := by rw [happended]
  have hsegments : appended.segments = runtime.segments := by rw [happended]
  have hcollection : ∀ mutation ∈ appended.mutable, mutation.collectionId = id := by
    intro mutation hmutation
    rw [hmutable] at hmutation
    rcases List.mem_append.mp hmutation with hold | hnew
    · exact (hnumbered.mutable mutation hold).1
    · exact collectionId_numberFrom haccepted hnumbers mutation hnew
  have hwhole : Wal.Increasing none appended.mutable := by
    rw [hmutable]
    exact increasing_append_numbered hnumbered hlast (increasing_of_querySegments hquery)
      hincreasing hfrom
  obtain ⟨read, hread⟩ := querySegments_exists hwhole hcollection
  have hlatest : ∀ key : RecordId, (latestOf read)[key]? =
      (fold (Segment.writes mutations))[key]?.or (latestOf segments)[key]? := by
    intro key
    rw [latestOf_querySegments hread, latestOf_querySegments hquery, hmutable, hsegments,
      Segment.writes, List.map_append, ← List.append_assoc]
    refine fold_append_of_lt (fun v hv w hw => ?_) key
    obtain ⟨mutation, hmutation, rfl⟩ := List.mem_map.mp hw
    rw [WalMutation.version_sequence]
    exact (lt_of_issued (issued_of_versions hnumbered hv) hlast).trans_le (hfrom mutation hmutation)
  rcases hsealed with rfl | hsealed
  · exact ⟨after, read, hafter, hread, hlatest⟩
  · obtain ⟨sealed, hquerySealed, hsame⟩ := latestOf_sealed hsealed hread
    rw [← hsame] at hlatest
    exact ⟨after, sealed, hafter, hquerySealed, hlatest⟩

end Queries

/-! ### What a batch writes -/

section Batches

variable {batch : List PendingMutation} {next : SequenceNumber}

def PendingMutation.recordId : PendingMutation → RecordId
  | .upsert _ id _ _ => id
  | .delete _ recordId => recordId

theorem mem_numberFrom {mutation : WalMutation} (h : mutation ∈ (numberFrom next batch).1) :
    ∃ pending ∈ batch, ∃ sequence, mutation = pending.numbered sequence := by
  induction batch generalizing next with
  | nil => cases h
  | cons pending rest ih =>
    rcases List.mem_cons.mp h with rfl | hrest
    · exact ⟨pending, List.mem_cons_self .., next, rfl⟩
    · obtain ⟨other, hother, hnumbered⟩ := ih hrest
      exact ⟨other, List.mem_cons_of_mem _ hother, hnumbered⟩

theorem numbered_mem_numberFrom {pending : PendingMutation} (h : pending ∈ batch) :
    ∃ sequence, pending.numbered sequence ∈ (numberFrom next batch).1 := by
  induction batch generalizing next with
  | nil => cases h
  | cons head rest ih =>
    rcases List.mem_cons.mp h with rfl | hrest
    · exact ⟨next, List.mem_cons_self ..⟩
    · obtain ⟨sequence, hsequence⟩ := ih hrest
      exact ⟨sequence, List.mem_cons_of_mem _ hsequence⟩

/-- Under a key a batch writes what one of its mutations for that key says. -/
theorem fold_numberFrom (next : SequenceNumber) (batch : List PendingMutation) (key : RecordId) :
    ((∀ pending ∈ batch, pending.recordId ≠ key) ∧
      (fold (Segment.writes (numberFrom next batch).1))[key]? = none) ∨
      ∃ pending ∈ batch, pending.recordId = key ∧ ∃ sequence,
        (fold (Segment.writes (numberFrom next batch).1))[key]? =
          some (sequence, (pending.numbered sequence).version.value) := by
  have hkey (pending : PendingMutation) (sequence : SequenceNumber) :
      (pending.numbered sequence).version.key = pending.recordId := by cases pending <;> rfl
  have hsequence (pending : PendingMutation) (sequence : SequenceNumber) :
      (pending.numbered sequence).version.sequence = sequence := by cases pending <;> rfl
  rcases fold_cases (Segment.writes (numberFrom next batch).1) key with
    ⟨hnone, hunknown⟩ | ⟨v, hv, rfl, hmem, -⟩
  · refine .inl ⟨fun pending hpending hsame => ?_, hnone⟩
    have hwritten : ∃ sequence, pending.numbered sequence ∈ (numberFrom next batch).1 :=
      numbered_mem_numberFrom hpending
    obtain ⟨sequence, hnumbered⟩ := hwritten
    exact hunknown _ (List.mem_map_of_mem hnumbered) ((hkey pending sequence).trans hsame)
  · obtain ⟨mutation, hmutation, rfl⟩ := List.mem_map.mp hmem
    obtain ⟨pending, hpending, sequence, rfl⟩ := mem_numberFrom hmutation
    rw [hsequence] at hv
    exact .inr ⟨pending, hpending, (hkey pending sequence).symm, sequence, hv⟩

end Batches

/-! ### Tables -/

abbrev RecordTable := Std.ExtTreeMap RecordId Record compare

/-- After a replacement the parent's records are the chunks, and all other records are what
they were, except that a chunk may take the id of a record that is nobody's chunk. -/
structure Replaced (parent : RecordId) (chunks : List PendingRecord) (before after : RecordTable) :
    Prop where
  written : ∀ chunk ∈ chunks, ∃ record, after[chunk.id]? = some record ∧
    record.vector.values = chunk.vector ∧ record.metadata = chunk.metadata
  exact : ∀ (id : RecordId) (record : Record), after[id]? = some record →
    recordBelongsToParent record parent → id ∈ chunks.map PendingRecord.id
  others : ∀ (id : RecordId) (record : Record) (other : RecordId), other ≠ parent →
    recordBelongsToParent record other → (after[id]? = some record ↔ before[id]? = some record)
  plain : ∀ (id : RecordId) (record : Record), id ∉ chunks.map PendingRecord.id →
    record.metadata.get chunkMetadataKey = none →
      (after[id]? = some record ↔ before[id]? = some record)

/-- No record of another parent has one of the ids. -/
def Untaken (parent : RecordId) (ids : List RecordId) (table : RecordTable) : Prop :=
  ∀ (id : RecordId) (record : Record) (other : RecordId), table[id]? = some record →
    other ≠ parent → recordBelongsToParent record other → id ∉ ids

/-- What a replacement does to the records: those of the parent are gone, and its chunks are
there. -/
structure Reconciles (parent : RecordId) (chunks : List PendingRecord)
    (before after : RecordTable) : Prop where
  written : ∀ chunk ∈ chunks, ∃ record, after[chunk.id]? = some record ∧
    record.vector.values = chunk.vector ∧ record.metadata = chunk.metadata
  kept : ∀ (id : RecordId) (record : Record), id ∉ chunks.map PendingRecord.id →
    (after[id]? = some record ↔ before[id]? = some record ∧ ¬recordBelongsToParent record parent)

theorem Reconciles.replaced_iff {parent : RecordId} {chunks : List PendingRecord}
    {before after : RecordTable} (h : Reconciles parent chunks before after)
    (hbelongs : ∀ chunk ∈ chunks, ∀ record : Record, record.metadata = chunk.metadata →
      recordBelongsToParent record parent) :
    Replaced parent chunks before after ↔
      Untaken parent (chunks.map PendingRecord.id) before := by
  have hchunk (id : RecordId) (hid : id ∈ chunks.map PendingRecord.id) :
      ∃ record, after[id]? = some record ∧ recordBelongsToParent record parent := by
    obtain ⟨chunk, hmem, rfl⟩ := List.mem_map.mp hid
    obtain ⟨record, hrecord, -, hmetadata⟩ := h.written chunk hmem
    exact ⟨record, hrecord, hbelongs chunk hmem record hmetadata⟩
  constructor
  · intro hreplaced id record other hrecord hother hparent hid
    obtain ⟨written, hwritten, hbelongs⟩ := hchunk id hid
    cases ((hreplaced.others id record other hother hparent).mpr hrecord).symm.trans hwritten
    exact hother (parent_unique hparent hbelongs)
  · intro huntaken
    refine ⟨h.written, fun id record hrecord hparent => ?_, fun id record other hother hparent => ?_,
      fun id record hid hplain => ?_⟩
    · by_contra hid
      exact ((h.kept id record hid).mp hrecord).2 hparent
    · by_cases hid : id ∈ chunks.map PendingRecord.id
      · refine iff_of_false (fun hafter => ?_) fun hbefore => ?_
        · obtain ⟨written, hwritten, hbelongs⟩ := hchunk id hid
          cases hafter.symm.trans hwritten
          exact hother (parent_unique hparent hbelongs)
        · exact huntaken id record other hbefore hother hparent hid
      · rw [h.kept id record hid]
        exact and_iff_left fun hbelongs => hother (parent_unique hparent hbelongs)
    · rw [h.kept id record hid]
      refine and_iff_left fun hbelongs => ?_
      obtain ⟨chunk, hchunk, -⟩ := recordBelongsToParent_iff.mp hbelongs
      cases hplain.symm.trans hchunk

/-! ### The visible records -/

section Visible

variable {F : Type} {state : AppState F} {runtime : CollectionRuntime} {segments : List Segment}
  {id : CollectionId} {parent key : RecordId}

/-- The records that searches see, if the collection can be read. -/
def Store.visible (state : AppState F) (store : Store F) : Option RecordTable :=
  store.runtime.bind fun runtime =>
    runtime.querySegments.toOption.map (foldVisibleRecords · state.collectionId)

theorem visible_eq {store : Store F} (hruntime : store.runtime = some runtime)
    (hquery : runtime.querySegments = .ok segments) :
    store.visible state = some (foldVisibleRecords segments state.collectionId) := by
  rw [Store.visible, hruntime, Option.bind_some, hquery]
  rfl

theorem collection_of_querySegments (hnumbered : runtime.Numbered id)
    (hquery : runtime.querySegments = .ok segments) :
    ∀ segment ∈ segments, segment.collectionId = id := by
  intro segment hsegment
  have hsealed (other : Segment) (hother : other ∈ runtime.segments) : other.collectionId = id :=
    (hnumbered.segments other hother).1.collection
  unfold CollectionRuntime.querySegments at hquery
  split at hquery
  · cases hquery
    exact hsealed segment hsegment
  · obtain ⟨last, hlast, hquery⟩ := except_bind_ok.mp hquery
    cases hquery
    rcases List.mem_append.mp hsegment with hold | hnew
    · exact hsealed segment hold
    · rw [List.mem_singleton.mp hnew]
      exact (Segment.of_fromMutations hlast fun mutation hmutation =>
        (hnumbered.mutable mutation hmutation).1).1.collection

/-- Searches see the latest versions, since the collection holds no others' segments. -/
theorem getElem?_visible (hnumbered : runtime.Numbered id)
    (hquery : runtime.querySegments = .ok segments) (key : RecordId) :
    (foldVisibleRecords segments id)[key]? = (latestOf segments)[key]?.bind Prod.snd := by
  rw [getElem?_foldVisibleRecords,
    versionsIn_of_collection (collection_of_querySegments hnumbered hquery)]

theorem mem_visibleParentChunkIds (hnumbered : runtime.Numbered id)
    (hquery : runtime.querySegments = .ok segments) :
    key ∈ visibleParentChunkIds segments parent ↔
      ∃ record, (foldVisibleRecords segments id)[key]? = some record ∧
        recordBelongsToParent record parent := by
  have hmem (record : Record) : record ∈ (latestOf segments).toList.filterMap
      (fun entry => entry.2.2) ↔ (foldVisibleRecords segments id)[record.id]? = some record := by
    rw [← mem_visibleRecords, visibleRecords, foldVisibleRecords,
      versionsIn_of_collection (collection_of_querySegments hnumbered hquery),
      Std.ExtTreeMap.toList_filterMap, List.map_filterMap]
    refine Iff.of_eq (congrArg (record ∈ ·) (List.filterMap_congr fun entry _ => ?_))
    cases entry.2.2 <;> rfl
  rw [visibleParentChunkIds, List.mem_map]
  constructor
  · rintro ⟨record, hrecord, rfl⟩
    obtain ⟨hvisible, hbelongs⟩ := List.mem_filter.mp hrecord
    exact ⟨record, (hmem record).mp hvisible, hbelongs⟩
  · rintro ⟨record, hvisible, hbelongs⟩
    have hid := (latest_of_visible hvisible).1
    rw [← hid] at hvisible
    exact ⟨record, List.mem_filter.mpr ⟨(hmem record).mpr hvisible, hbelongs⟩, hid⟩

end Visible

/-! ### Reconciling -/

section Reconciling

open ChunkingService

variable {F : Type} {state : AppState F} {config : CollectionConfig} {runtime after : CollectionRuntime}
  {segments written : List Segment} {id : CollectionId} {parent : RecordId}
  {records : List ChunkRecord} {chunks : List PendingRecord} {upserts : List PendingMutation}

theorem prepared_upsert (h : WriteService.prepareBatch state config chunks = .ok upserts) :
    (∀ pending ∈ upserts, ∃ chunk ∈ chunks, ∃ vector : Vector, vector.values = chunk.vector ∧
        pending = .upsert state.collectionId chunk.id vector chunk.metadata) ∧
      ∀ chunk ∈ chunks, ∃ pending ∈ upserts, pending.recordId = chunk.id := by
  obtain ⟨hsource, htarget⟩ := mem_of_except_mapM h
  have hprepared {chunk : PendingRecord} {pending : PendingMutation} (h : (do
      let vector ← (WriteService.validatePending config chunk).mapError fun error : DomainError =>
        WriteError.validation error.display
      pure (PendingMutation.upsert state.collectionId chunk.id vector chunk.metadata)) = .ok pending) :
      ∃ vector : Vector, vector.values = chunk.vector ∧
        pending = .upsert state.collectionId chunk.id vector chunk.metadata := by
    obtain ⟨vector, hvector, hpending⟩ := except_bind_ok.mp h
    obtain ⟨checked, hchecked, hvalid⟩ := except_bind_ok.mp (mapError_ok_iff.mp hvector)
    obtain ⟨⟨⟩, -, hsame⟩ := except_bind_ok.mp hvalid
    cases hsame
    cases hpending
    exact ⟨vector, Vector.values_of_new hchecked, rfl⟩
  refine ⟨fun pending hpending => ?_, fun chunk hchunk => ?_⟩
  · obtain ⟨chunk, hchunk, hresult⟩ := hsource pending hpending
    exact ⟨chunk, hchunk, hprepared hresult⟩
  · obtain ⟨pending, hpending, hresult⟩ := htarget chunk hchunk
    obtain ⟨vector, -, rfl⟩ := hprepared hresult
    exact ⟨_, hpending, rfl⟩

/-- A batch that stores the chunks and deletes the parent's other records reconciles them. -/
theorem reconciles_of_batch {obsolete : List RecordId}
    (hnumbered : runtime.Numbered state.collectionId)
    (hafterNumbered : after.Numbered state.collectionId)
    (hquery : runtime.querySegments = .ok segments) (hafter : after.querySegments = .ok written)
    (hprepared : WriteService.prepareBatch state config chunks = .ok upserts)
    (hnodup : (chunks.map PendingRecord.id).Nodup)
    (hobsolete : ∀ key, key ∈ obsolete ↔
      key ∈ visibleParentChunkIds segments parent ∧ key ∉ chunks.map PendingRecord.id)
    (hwritten : ∀ key : RecordId, (latestOf written)[key]? =
      (fold (Segment.writes (numberFrom runtime.nextSequence
        (upserts ++ obsolete.map (.delete state.collectionId))).1))[key]?.or
          (latestOf segments)[key]?) :
    Reconciles parent chunks (foldVisibleRecords segments state.collectionId)
      (foldVisibleRecords written state.collectionId) := by
  obtain ⟨hupserts, hchunks⟩ := prepared_upsert hprepared
  have hvisible (key : RecordId) :
      (foldVisibleRecords written state.collectionId)[key]? = ((fold (Segment.writes (numberFrom
        runtime.nextSequence (upserts ++ obsolete.map (.delete state.collectionId))).1))[key]?.or
          (latestOf segments)[key]?).bind Prod.snd := by
    rw [getElem?_visible hafterNumbered hafter, hwritten]
  refine ⟨fun chunk hchunk => ?_, fun key record hkey => ?_⟩
  · obtain ⟨pending, hpending, hid⟩ := hchunks chunk hchunk
    rcases fold_numberFrom runtime.nextSequence
        (upserts ++ obsolete.map (.delete state.collectionId)) chunk.id with
      ⟨hother, -⟩ | ⟨winner, hwinner, hkey, sequence, hfold⟩
    · exact absurd hid (hother pending (List.mem_append_left _ hpending))
    · rcases List.mem_append.mp hwinner with hupsert | hdelete
      · obtain ⟨same, hsame, vector, hvector, rfl⟩ := hupserts winner hupsert
        cases List.inj_on_of_nodup_map hnodup hsame hchunk hkey
        refine ⟨⟨chunk.id, vector, chunk.metadata, sequence⟩, ?_, hvector, rfl⟩
        rw [hvisible, hfold]
        rfl
      · obtain ⟨deleted, hdeleted, rfl⟩ := List.mem_map.mp hdelete
        have hnew := ((hobsolete deleted).mp hdeleted).2
        have hsame : deleted = chunk.id := hkey
        rw [hsame] at hnew
        exact absurd (List.mem_map_of_mem hchunk) hnew
  · rcases fold_numberFrom runtime.nextSequence
        (upserts ++ obsolete.map (.delete state.collectionId)) key with
      ⟨hother, hfold⟩ | ⟨winner, hwinner, hwins, sequence, hfold⟩
    · have hsame : (foldVisibleRecords written state.collectionId)[key]? =
          (foldVisibleRecords segments state.collectionId)[key]? := by
        rw [hvisible, hfold, Option.none_or, ← getElem?_visible hnumbered hquery]
      rw [hsame]
      refine (and_iff_left_of_imp fun hrecord hbelongs => ?_).symm
      have hprevious := (mem_visibleParentChunkIds hnumbered hquery).mpr ⟨record, hrecord, hbelongs⟩
      have hdeleted := (hobsolete key).mpr ⟨hprevious, hkey⟩
      exact hother (.delete state.collectionId key)
        (List.mem_append_right _ (List.mem_map_of_mem hdeleted)) rfl
    · rcases List.mem_append.mp hwinner with hupsert | hdelete
      · obtain ⟨chunk, hchunk, vector, -, rfl⟩ := hupserts winner hupsert
        have hsame : chunk.id = key := hwins
        rw [← hsame] at hkey
        exact absurd (List.mem_map_of_mem hchunk) hkey
      · obtain ⟨deleted, hdeleted, rfl⟩ := List.mem_map.mp hdelete
        have hsame : deleted = key := hwins
        subst hsame
        obtain ⟨previous, hprevious, hbelongs⟩ :=
          (mem_visibleParentChunkIds hnumbered hquery).mp ((hobsolete deleted).mp hdeleted).1
        refine iff_of_false (fun hrecord => ?_) fun h => ?_
        · rw [hvisible, hfold] at hrecord
          cases hrecord
        · cases hprevious.symm.trans h.1
          exact h.2 hbelongs

end Reconciling

/-! ### The operations -/

section Chunks

variable {parent : RecordId} {contents : List ChunkContent} {generation : SequenceNumber}

theorem ids_chunkRecords : (chunkRecords parent contents).map ChunkRecord.id =
    (List.range contents.length).map (chunkRecordId parent) := by
  refine List.ext_getElem ?_ fun index _ _ => ?_
  · rw [List.length_map, List.length_map, chunkRecords, List.length_mapIdx, List.length_range]
  · rw [List.getElem_map, List.getElem_map, List.getElem_range]
    simp only [chunkRecords, List.getElem_mapIdx]
    rfl

theorem ids_stamped (records : List ChunkRecord) :
    (records.map (ChunkRecord.stamped generation)).map PendingRecord.id =
      records.map ChunkRecord.id := by
  rw [List.map_map]
  rfl

theorem nodup_chunkRecords : ((chunkRecords parent contents).map ChunkRecord.id).Nodup := by
  rw [ids_chunkRecords]
  exact List.nodup_range.map fun _ _ h => (chunkRecordId_injective h).2

theorem belongs_of_chunkRecords {chunk : PendingRecord} {record : Record}
    (h : chunk ∈ (chunkRecords parent contents).map (ChunkRecord.stamped generation))
    (hrecord : record.metadata = chunk.metadata) : recordBelongsToParent record parent := by
  obtain ⟨source, hsource, rfl⟩ := List.mem_map.mp h
  obtain ⟨ordinal, hordinal, rfl⟩ := List.mem_mapIdx.mp hsource
  exact belongs_stamped hrecord

end Chunks

section Operations

open ChunkingService StoreStep WriteService

variable {F : Type} [DecidableEq F] {state : AppState F} {S : Type} [ScoreArith S]
  {config : CollectionConfig} {store : Store F} {runtime : CollectionRuntime}
  {segments : List Segment} {parent : RecordId} {logged : List WalMutation} {ε α β : Type}

/-- What holds of the store once the program has succeeded. -/
def onSuccess (ok : Store F → Prop) : Post (Store F) ε α :=
  ⟨fun _ next => ok next, fun _ _ => True, fun _ => True⟩

omit [DecidableEq F] in
theorem ensures_runtime {f : CollectionRuntime → Program (Store F) WriteError α}
    {ok : Store F → Prop}
    (h : ∀ runtime, store.runtime = some runtime → (f runtime).Ensures (onSuccess ok) store) :
    (currentRuntime state >>= f).Ensures (onSuccess ok) store := by
  refine ensures_bind (ensures_getBind ?_)
  cases hruntime : store.runtime with
  | none => exact ensures_throw trivial
  | some runtime => exact ensures_pure (h runtime hruntime)

omit [DecidableEq F] in
theorem ensures_checked {result : Except ε β} {f : β → Program (Store F) ε α} {ok : Store F → Prop}
    (h : ∀ value, result = .ok value → (f value).Ensures (onSuccess ok) store) :
    (lift result >>= f).Ensures (onSuccess ok) store :=
  ensures_bind (ensures_lift h fun _ _ => trivial)

omit [DecidableEq F] in
/-- What a replacement hands to the log has been checked. -/
theorem accepted_batch {chunks : List PendingRecord} {upserts : List PendingMutation}
    (obsolete : List RecordId) (h : prepareBatch state config chunks = .ok upserts) :
    ∀ pending ∈ upserts ++ obsolete.map (.delete state.collectionId),
      pending.Accepted state.collectionId config := by
  intro pending hpending
  rcases List.mem_append.mp hpending with hupsert | hdelete
  · exact accepted_of_prepareBatch h pending hupsert
  · obtain ⟨key, -, rfl⟩ := List.mem_map.mp hdelete
    rfl

theorem ensures_reconciles (parent : RecordId) {chunks : List PendingRecord} {upserts : List PendingMutation}
    {obsolete : List RecordId} {ok : Store F → Prop} (hnumbered : StoreStep.Numbered state store)
    (hruntime : store.runtime = some runtime) (hlast : runtime.nextSequence.toNat < maxSequence)
    (hconfig : runtime.config = some config) (hquery : runtime.querySegments = .ok segments)
    (hprepared : prepareBatch state config chunks = .ok upserts)
    (hnodup : (chunks.map PendingRecord.id).Nodup)
    (hobsolete : ∀ key, key ∈ obsolete ↔
      key ∈ visibleParentChunkIds segments parent ∧ key ∉ chunks.map PendingRecord.id)
    (hok : ∀ next visible, next.visible state = some visible →
      Reconciles parent chunks (foldVisibleRecords segments state.collectionId) visible → ok next) :
    (write state S runtime (upserts ++ obsolete.map (.delete state.collectionId))).Ensures
      (onSuccess ok) store := by
  have haccepted := accepted_batch obsolete hprepared
  refine (ensures_write hruntime hconfig haccepted).mono ?_ (fun _ _ _ => trivial) fun _ _ => trivial
  rintro _ next ⟨⟨_, _, hsteps⟩, hwrote⟩
  have hcurrent := hnumbered.runtime runtime hruntime
  obtain ⟨after, written, hafter, hread, hlatest⟩ :=
    latestOf_wrote hcurrent hlast haccepted hquery hwrote
  exact hok next _ (visible_eq hafter hread) (reconciles_of_batch hcurrent
    ((hnumbered.steps hsteps).runtime after hafter) hquery hread hprepared hnodup hobsolete hlatest)

/-- The new store shows the new version of the document beside the other records. -/
def ReplacesDocument (state : AppState F) (parent : RecordId) (contents : List ChunkContent)
    (store next : Store F) : Prop :=
  ∀ runtime before, store.runtime = some runtime → store.visible state = some before →
    ∃ after, next.visible state = some after ∧ Replaced parent
      ((chunkRecords parent contents).map (ChunkRecord.stamped runtime.nextSequence)) before after

def ShowsNoChunk (state : AppState F) (parent : RecordId) (next : Store F) : Prop :=
  ∃ after, next.visible state = some after ∧ ∀ (id : RecordId) (record : Record),
    after[id]? = some record → ¬recordBelongsToParent record parent

theorem ensures_replaceParentChunks (hnumbered : StoreStep.Numbered state store)
    (hnumbers : ∀ runtime, store.runtime = some runtime →
      runtime.nextSequence.toNat < maxSequence) (contents : List ChunkContent) :
    (replaceParentChunks state S parent (chunkRecords parent contents)).Ensures
      (onSuccess fun next => ReplacesDocument state parent contents store next ↔
        ∀ before, store.visible state = some before →
          Untaken parent ((chunkRecords parent contents).map ChunkRecord.id) before) store := by
  refine ensures_runtime fun runtime hruntime => ?_
  cases hconfig : runtime.config with
  | none => exact ensures_throw trivial
  | some config =>
    refine ensures_checked fun segments hsegments => ensures_checked fun upserts hprepared => ?_
    have hquery := mapError_ok_iff.mp hsegments
    refine ensures_bind ((ensures_reconciles parent hnumbered hruntime (hnumbers runtime hruntime)
      hconfig hquery hprepared ?_ ?_ fun next visible hvisible hreconciles => ?_).mono
        (fun _ _ hnext => ensures_pure hnext) (fun _ _ _ => trivial) fun _ _ => trivial)
    · rw [ids_stamped]
      exact nodup_chunkRecords
    · intro key
      rw [ids_stamped, obsoleteChunks, List.mem_filter, decide_eq_true_eq]
    · have hiff := hreconciles.replaced_iff fun chunk hchunk record hrecord =>
        belongs_of_chunkRecords hchunk hrecord
      rw [ids_stamped] at hiff
      have hbefore : store.visible state = some _ := visible_eq hruntime hquery
      constructor
      · intro hreplaces before hshown
        cases hbefore.symm.trans hshown
        obtain ⟨after, hafter, hreplaced⟩ := hreplaces runtime _ hruntime hbefore
        cases hvisible.symm.trans hafter
        exact hiff.mp hreplaced
      · intro huntaken other before hother hshown
        cases hruntime.symm.trans hother
        cases hbefore.symm.trans hshown
        exact ⟨visible, hvisible, hiff.mpr (huntaken _ hbefore)⟩

theorem ensures_deleteParentDocument (hnumbered : StoreStep.Numbered state store)
    (hnumbers : ∀ runtime, store.runtime = some runtime →
      runtime.nextSequence.toNat < maxSequence) :
    (deleteParentDocument state S parent).Ensures (onSuccess (ShowsNoChunk state parent)) store := by
  refine ensures_runtime fun runtime hruntime => ?_
  cases hconfig : runtime.config with
  | none => exact ensures_throw trivial
  | some config =>
    refine ensures_checked fun segments hsegments => ?_
    have hquery := mapError_ok_iff.mp hsegments
    have hchunk : ∀ key, key ∈ visibleParentChunkIds segments parent ↔ _ := fun key =>
      mem_visibleParentChunkIds (hnumbered.runtime runtime hruntime) hquery
    dsimp only
    split
    · rename_i hnone
      refine ensures_pure ⟨_, visible_eq hruntime hquery, fun key record hrecord hbelongs => ?_⟩
      have hlisted := (hchunk key).mpr ⟨record, hrecord, hbelongs⟩
      rw [hnone] at hlisted
      cases hlisted
    · have hnothing : prepareBatch state config [] = .ok [] := rfl
      rw [← List.nil_append (List.map _ _)]
      refine ensures_reconciles parent hnumbered hruntime (hnumbers runtime hruntime) hconfig hquery
        hnothing List.nodup_nil (fun key => (and_iff_left List.not_mem_nil).symm) ?_
      intro next visible hvisible hreconciles
      exact ⟨visible, hvisible, fun key record hrecord =>
        ((hreconciles.kept key record List.not_mem_nil).mp hrecord).2⟩

/-! ### Runs -/

/-- The steps of a store are all that an operation on documents does to it. -/
theorem reached_write {batch : List PendingMutation} (hruntime : store.runtime = some runtime)
    (hconfig : runtime.config = some config)
    (hbatch : ∀ pending ∈ batch, pending.Accepted state.collectionId config) :
    (write state S runtime batch).Ensures
      (progress S state store (fun _ => True) fun _ next =>
        Reached S state store (fun _ => True) next) store := by
  have hany {allowed : List WalMutation → Prop} {next : Store F}
      (h : Reached S state store allowed next) : Reached S state store (fun _ => True) next := by
    obtain ⟨logged, -, hsteps⟩ := h
    exact ⟨logged, trivial, hsteps⟩
  exact (ensures_write hruntime hconfig hbatch).mono (fun _ _ h => hany h.1) (fun _ _ h => hany h)
    fun _ h => hany h

theorem reached_replaceParentChunks (parent : RecordId) (records : List ChunkRecord) :
    (replaceParentChunks state S parent records).Ensures
      (progress S state store (fun _ => True) fun _ next =>
        Reached S state store (fun _ => True) next) store := by
  have hstart : Reached S state store (fun _ => True) store := ⟨[], trivial, .refl store⟩
  refine ensures_seq (ensures_currentRuntime hstart fun runtime hruntime => ?_)
  cases hconfig : runtime.config with
  | none => exact ensures_throw hstart
  | some config =>
    refine ensures_seq (ensures_check hstart fun segments _ => ?_)
    refine ensures_seq (ensures_check hstart fun upserts hprepared => ?_)
    exact ensures_seq ((reached_write hruntime hconfig (accepted_batch _ hprepared)).mono
      (fun _ _ hnext => ensures_pure hnext) (fun _ _ hnext => hnext) fun _ hnext => hnext)

theorem reached_deleteParentDocument (parent : RecordId) :
    (deleteParentDocument state S parent).Ensures
      (progress S state store (fun _ => True) fun _ next =>
        Reached S state store (fun _ => True) next) store := by
  have hstart : Reached S state store (fun _ => True) store := ⟨[], trivial, .refl store⟩
  refine ensures_seq (ensures_currentRuntime hstart fun runtime hruntime => ?_)
  cases hconfig : runtime.config with
  | none => exact ensures_throw hstart
  | some config =>
    refine ensures_seq (ensures_check hstart fun segments _ => ?_)
    dsimp only
    split
    · exact ensures_pure hstart
    · refine reached_write hruntime hconfig fun pending hpending => ?_
      obtain ⟨key, -, rfl⟩ := List.mem_map.mp hpending
      rfl

inductive DocumentEvent where
  | collection (event : Session.Event)
  | replace (parent : RecordId) (contents : List ChunkContent) (faults : List Fault)
  | deleteDocument (parent : RecordId) (faults : List Fault)

variable (S state) in
/-- Documents come and go beside all the other operations on a collection, its crashes and its
restarts. -/
def documentStep (store : Store F) : DocumentEvent → Store F
  | .collection event => (Session.step S state ⟨store, []⟩ event).store
  | .replace parent contents faults => Session.settle
      ((replaceParentChunks state S parent (chunkRecords parent contents)).run store faults)
  | .deleteDocument parent faults => Session.settle
      ((deleteParentDocument state S parent).run store faults)

theorem documentStep_numbered (h : StoreStep.Numbered state store) (event : DocumentEvent) :
    StoreStep.Numbered state (documentStep state S store event) := by
  have hreached {next : Store F} (hnext : Reached S state store (fun _ => True) next) :
      StoreStep.Numbered state next := by
    obtain ⟨logged, -, hsteps⟩ := hnext
    exact h.steps hsteps
  cases event with
  | collection event =>
    have hlogged : Session.Logged (Session.mk store []).calls [] := .nil
    have hmoved : ∃ added, _ ∧ Steps S state store added
        (Session.step S state ⟨store, []⟩ event).store := Session.step_steps hlogged event
    obtain ⟨added, -, hsteps⟩ := hmoved
    exact h.steps hsteps
  | replace parent contents faults =>
    exact hreached (Session.reached_settle
      (reached_replaceParentChunks parent (chunkRecords parent contents) faults))
  | deleteDocument parent faults =>
    exact hreached (Session.reached_settle (reached_deleteParentDocument parent faults))

/-- In every state that a collection reaches, unless its numbers have run out, a replacement is
exact if and only if no record of another parent carries the id of a new chunk. -/
theorem replaceParentChunks_exact_iff (hconfig : config.id = state.collectionId)
    (hrun : Reaches (documentStep state S) (fun _ _ => True) (.created state config) store)
    (hnumbers : ∀ runtime, store.runtime = some runtime →
      runtime.nextSequence.toNat < maxSequence) :
    (∀ parent contents, (replaceParentChunks state S parent (chunkRecords parent contents)).Ensures
        (onSuccess fun next => ReplacesDocument state parent contents store next ↔
          ∀ before, store.visible state = some before →
            Untaken parent ((chunkRecords parent contents).map ChunkRecord.id) before) store) ∧
      (∀ parent, (deleteParentDocument state S parent).Ensures
        (onSuccess (ShowsNoChunk state parent)) store) ∧
      Function.Injective2 chunkRecordId := by
  have hnumbered : StoreStep.Numbered state store :=
    hrun.invariant (StoreStep.Numbered state) (numbered_created hconfig) fun _ event h _ =>
      documentStep_numbered h event
  exact ⟨fun _ contents => ensures_replaceParentChunks hnumbered hnumbers contents,
    fun _ => ensures_deleteParentDocument hnumbered hnumbers, chunkRecordId_injective⟩

end Operations

/-! ### A borrowed id -/

section Sample

open ChunkingService

/-- In every state that a collection reaches, documents are replaced and deleted exactly. -/
def DocumentsExact (state : AppState Unit) (S : Type) [ScoreArith S] (config : CollectionConfig) :
    Prop :=
  ∀ store, Reaches (documentStep state S) (fun _ _ => True) (.created state config) store →
    (∀ parent contents, (replaceParentChunks state S parent (chunkRecords parent contents)).Ensures
      (onSuccess (ReplacesDocument state parent contents store)) store) ∧
    (∀ parent, (deleteParentDocument state S parent).Ensures
      (onSuccess (ShowsNoChunk state parent)) store) ∧
    Function.Injective2 chunkRecordId

def noteCollection : AppState Unit := ⟨⟨"notes", by decide⟩, none, 100, fun _ => ()⟩

def noteConfig : CollectionConfig :=
  ⟨noteCollection.collectionId, 1, Nat.one_pos, .dot, [], .default, none⟩

def noteA : RecordId := .string "a" (by decide)

def noteB : RecordId := .string "b" (by decide)

def noteContent : ChunkContent := ⟨[⟨0x3f800000⟩], .empty, .empty⟩

theorem replaceParentChunks_exact_iff_note :
    Session.isOk ((replaceParentChunks noteCollection ℝ noteA (chunkRecords noteA [noteContent])).run
      (.created noteCollection noteConfig) []) ∧
    (replaceParentChunks noteCollection ℝ noteA (chunkRecords noteA [noteContent])).Ensures
      (onSuccess fun next => ReplacesDocument noteCollection noteA [noteContent]
          (.created noteCollection noteConfig) next ↔
        ∀ before, Store.visible noteCollection (.created noteCollection noteConfig) = some before →
          Untaken noteA ((chunkRecords noteA [noteContent]).map ChunkRecord.id) before)
      (.created noteCollection noteConfig) := by
  refine ⟨by decide +kernel, (replaceParentChunks_exact_iff rfl (Reaches.refl _) ?_).1 noteA
    [noteContent]⟩
  intro runtime hruntime
  cases hruntime
  decide

/-- A client's record that says it is a chunk of one note, under the id of a chunk of another. -/
def borrowed : PendingRecord :=
  { (chunkRecord noteB 0 noteContent).stamped 1 with id := chunkRecordId noteA 0 }

noncomputable def borrowedStore : Store Unit :=
  [.collection (.upsertBatch [borrowed] [])].foldl (documentStep noteCollection ℝ)
    (.created noteCollection noteConfig)

/-- The number of a chunk after a call that returned. -/
def numberAfter (id : RecordId) :
    Ending WriteError ChunkedDocumentResult × World (Store Unit) → Option SequenceNumber
  | (.ok _, world) => ((world.state.visible noteCollection).bind (·[id]?)).map Record.sequenceNumber
  | _ => none

set_option maxRecDepth 10000 in
/-- The replacement of a note overwrites the chunk of the other one. -/
theorem not_documentsExact : ¬DocumentsExact noteCollection ℝ noteConfig := by
  intro h
  have hreached : Reaches (documentStep noteCollection ℝ) (fun _ _ => True)
      (.created noteCollection noteConfig) borrowedStore := Reaches.foldl _ _
  have hreplaced := (h borrowedStore hreached).1 noteA [noteContent] []
  have hbefore : ((borrowedStore.visible noteCollection).bind (·[chunkRecordId noteA 0]?)).map
      (fun record => (record.sequenceNumber, recordBelongsToParent record noteB)) =
        some (1, true) := by decide +kernel
  have hafter : numberAfter (chunkRecordId noteA 0) ((replaceParentChunks noteCollection ℝ noteA
      (chunkRecords noteA [noteContent])).run borrowedStore []) = some 2 := by decide +kernel
  generalize (replaceParentChunks noteCollection ℝ noteA (chunkRecords noteA [noteContent])).run
    borrowedStore [] = ending at hreplaced hafter
  obtain ⟨record, hrecord, hnumber⟩ := Option.map_eq_some_iff.mp hbefore
  obtain ⟨before, hvisible, hrecord⟩ := Option.bind_eq_some_iff.mp hrecord
  obtain ⟨runtime, hruntime, -⟩ := Option.bind_eq_some_iff.mp hvisible
  obtain ⟨value | error | _, world⟩ := ending
  · obtain ⟨after, hshown, hexact⟩ := hreplaced runtime before hruntime hvisible
    have hother : noteB ≠ noteA := by decide
    have hkept := (hexact.others _ record noteB hother (congrArg Prod.snd hnumber)).mpr hrecord
    rw [numberAfter, hshown, Option.bind_some, hkept, Option.map_some] at hafter
    have hfirst : record.sequenceNumber = 1 := congrArg Prod.fst hnumber
    rw [hfirst] at hafter
    cases hafter
  · cases hafter
  · cases hafter

end Sample

end Ketebe
