import Ketebe.LexicalRuntime

/-!
A snapshot file that cannot be decoded. Recovery gives up on it, a build does not
replace it, and while it is there no query with text returns hits.
-/
namespace Ketebe

open Lib.ByteCodec LexicalSnapshotFile

/-- The files without one of them. -/
def LexicalIndexStore.without (store : LexicalIndexStore) (fingerprint : UInt64) :
    LexicalIndexStore :=
  ⟨store.files.erase fingerprint⟩

theorem LexicalIndexStore.load_of_undecodable {store : LexicalIndexStore}
    {checkpoint : Checkpoint} {fields : List FieldPath} {analyzer : LexicalAnalyzerConfig}
    {segments : List Segment} {bytes : Bytes} {error : LexicalIndexError}
    (hfile : store.files[lexicalCheckpointFingerprint checkpoint fields analyzer]? = some bytes)
    (hdecode : decodeSnapshot bytes = .error error) :
    store.load checkpoint fields analyzer segments = .error error := by
  rw [load, hfile]
  dsimp only
  rw [hdecode]
  rfl

namespace LexicalRuntime

theorem queryLexicalIndex_of_undecodable {runtime : CollectionRuntime} {checkpoint : Checkpoint}
    {store : LexicalIndexStore} {bytes : Bytes} {error : LexicalIndexError}
    (hmutable : runtime.mutable = [])
    (hcheckpoint : runtime.checkpoint = some checkpoint)
    (hfields : runtime.configuredLexicalFields ≠ [])
    (hfile : store.files[runtime.lexicalFingerprint checkpoint]? = some bytes)
    (hdecode : decodeSnapshot bytes = .error error) :
    (queryLexicalIndex ⟨runtime, ∅⟩ store runtime.configuredLexicalFields).1 = .error error := by
  unfold queryLexicalIndex
  rw [indexedCheckpoint_configured hmutable hcheckpoint hfields]
  dsimp only
  rw [Std.ExtTreeMap.getElem?_empty]
  dsimp only
  rw [LexicalIndexStore.load_of_undecodable hfile hdecode]

/-- Recovery and queries work as if the snapshot were absent, and the next build
leaves one that can be decoded. -/
structure CorruptionHarmless (S : Type) [Unicode] [LexicalArith] [ScoreArith S]
    (runtime : CollectionRuntime) (checkpoint : Checkpoint) (store : LexicalIndexStore) :
    Prop where
  sameHits : ∀ request control hits,
    queryAfterRecovery S runtime (store.without (runtime.lexicalFingerprint checkpoint)) request
      control = .ok hits → queryAfterRecovery S runtime store request control = .ok hits
  replaced : ∃ index published, (recoverLexical runtime store).2.rebuildAndPublish checkpoint
      runtime.configuredLexicalFields runtime.configuredLexicalAnalyzer runtime.segments =
        .ok (index, published) ∧
    ∃ bytes snapshot, published.files[runtime.lexicalFingerprint checkpoint]? = some bytes ∧
      decodeSnapshot bytes = .ok snapshot

section Corrupt

variable [Unicode] [LexicalArith] {S : Type} [ScoreArith S] {runtime : CollectionRuntime}
  {checkpoint : Checkpoint} {store : LexicalIndexStore} {bytes : Bytes} {error : LexicalIndexError}

theorem recoverLexical_runtime (runtime : CollectionRuntime) (store : LexicalIndexStore) :
    (recoverLexical runtime store).1.runtime = runtime := by
  unfold recoverLexical
  split
  · split
    · rfl
    · split <;> rfl
  · rfl

/-- Hits come only from a request that could be prepared. -/
theorem prepare_of_executeQueryV1 {lexical : LexicalRuntime} {request : QueryV1Request}
    {control : QueryControl} {hits : List (QueryV1Hit S)}
    (h : (lexical.executeQueryV1 S store request control).1 = .ok hits) :
    ∃ prepared, prepare lexical.runtime request = .ok prepared := by
  unfold executeQueryV1 at h
  split at h
  · cases h
  · exact ⟨_, ‹_›⟩

/-- Recovery neither fills the cache nor touches the file. -/
theorem recoverLexical_of_undecodable (hcheckpoint : runtime.checkpoint = some checkpoint)
    (hfile : store.files[runtime.lexicalFingerprint checkpoint]? = some bytes)
    (hdecode : decodeSnapshot bytes = .error error) :
    recoverLexical runtime store = (⟨runtime, ∅⟩, store) := by
  unfold recoverLexical
  split
  · rename_i named _ hnamed
    rw [hcheckpoint] at hnamed
    cases hnamed
    split
    · rfl
    · have hrestore : restoreOrRebuildLexical store checkpoint runtime.configuredLexicalFields
          runtime.configuredLexicalAnalyzer runtime.segments = .error error := by
        unfold restoreOrRebuildLexical
        rw [LexicalIndexStore.load_of_undecodable hfile hdecode]
        rfl
      rw [hrestore]
  · rfl

/-- Without a snapshot recovery builds the index, and queries search it. -/
theorem queryAfterRecovery_of_missing {index : LexicalIndex} {published : LexicalIndexStore}
    (hmutable : runtime.mutable = []) (hcheckpoint : runtime.checkpoint = some checkpoint)
    (hfields : runtime.configuredLexicalFields ≠ [])
    (hmissing : store.files[runtime.lexicalFingerprint checkpoint]? = none)
    (hpublish : store.rebuildAndPublish checkpoint runtime.configuredLexicalFields
      runtime.configuredLexicalAnalyzer runtime.segments = .ok (index, published))
    (request : QueryV1Request) (control : QueryControl) :
    queryAfterRecovery S runtime store request control = (do
      let prepared ← prepare runtime request
      answer S runtime request prepared control (.ok (some index))) := by
  have hload : store.load checkpoint runtime.configuredLexicalFields
      runtime.configuredLexicalAnalyzer runtime.segments = .ok .missing := by
    unfold CollectionRuntime.lexicalFingerprint at hmissing
    rw [LexicalIndexStore.load, hmissing]
  have hrestore : restoreOrRebuildLexical store checkpoint runtime.configuredLexicalFields
      runtime.configuredLexicalAnalyzer runtime.segments =
        .ok ((runtime.lexicalFingerprint checkpoint, index),
          published.garbageCollect (runtime.lexicalFingerprint checkpoint)) := by
    unfold restoreOrRebuildLexical
    rw [hload, except_ok_bind]
    exact except_bind_ok.mpr ⟨_, hpublish, rfl⟩
  have hrecovered : recoverLexical runtime store =
      (installLexicalIndex ⟨runtime, ∅⟩ (runtime.lexicalFingerprint checkpoint) index,
        published.garbageCollect (runtime.lexicalFingerprint checkpoint)) := by
    unfold recoverLexical
    rw [hmutable, hcheckpoint]
    dsimp only
    rw [if_neg hfields, hrestore]
  unfold queryAfterRecovery executeQueryV1
  rw [hrecovered]
  dsimp only
  rw [installLexicalIndex_runtime]
  cases hprepared : prepare runtime request with
  | error error => rfl
  | ok prepared =>
    rw [except_ok_bind]
    dsimp only
    rw [(prepare_fields hprepared).2]
    unfold queryLexicalIndex
    rw [installLexicalIndex_runtime, indexedCheckpoint_configured hmutable hcheckpoint hfields]
    dsimp only
    rw [installLexicalIndex_self]

/-- A build over the file keeps it. -/
theorem rebuildAndPublish_of_file {fields : List FieldPath} {analyzer : LexicalAnalyzerConfig}
    {segments : List Segment} {index : LexicalIndex} {published : LexicalIndexStore}
    (hfile : store.files[lexicalCheckpointFingerprint checkpoint fields analyzer]? = some bytes)
    (h : store.rebuildAndPublish checkpoint fields analyzer segments = .ok (index, published)) :
    published = store := by
  obtain ⟨built, hbuilt, h⟩ := except_bind_ok.mp h
  obtain ⟨written, hwritten, h⟩ := except_bind_ok.mp h
  cases h
  obtain ⟨-, -, -, hfingerprint, -⟩ := LexicalIndex.build_valid hbuilt
  have hname : (LexicalSnapshot.fromIndex index).fingerprint =
      lexicalCheckpointFingerprint checkpoint fields analyzer := hfingerprint
  rw [LexicalIndexStore.publish, hname, hfile] at hwritten
  cases hwritten
  rfl

theorem queryAfterRecovery_of_undecodable (hmutable : runtime.mutable = [])
    (hcheckpoint : runtime.checkpoint = some checkpoint)
    (hfile : store.files[runtime.lexicalFingerprint checkpoint]? = some bytes)
    (hdecode : decodeSnapshot bytes = .error error) {request : QueryV1Request}
    {prepared : PreparedQuery} (hprepared : prepare runtime request = .ok prepared)
    (control : QueryControl) :
    queryAfterRecovery S runtime store request control = .error (.lexicalLifecycle error) := by
  obtain ⟨hfields, hquery⟩ := prepare_fields hprepared
  unfold queryAfterRecovery executeQueryV1
  rw [recoverLexical_of_undecodable hcheckpoint hfile hdecode]
  dsimp only
  rw [hprepared]
  dsimp only
  rw [hquery, queryLexicalIndex_of_undecodable hmutable hcheckpoint hfields hfile hdecode]
  rfl

/-- With a snapshot that cannot be decoded, every query that would return hits
fails instead, and every build leaves the snapshot as it is. -/
theorem not_corruptionHarmless (hmutable : runtime.mutable = [])
    (hcheckpoint : runtime.checkpoint = some checkpoint)
    (hfile : store.files[runtime.lexicalFingerprint checkpoint]? = some bytes)
    (hdecode : decodeSnapshot bytes = .error error) :
    ¬CorruptionHarmless S runtime checkpoint store ∧
      (∀ request control hits, queryAfterRecovery S runtime
          (store.without (runtime.lexicalFingerprint checkpoint)) request control = .ok hits →
        queryAfterRecovery S runtime store request control = .error (.lexicalLifecycle error)) ∧
      ∀ index published, (recoverLexical runtime store).2.rebuildAndPublish checkpoint
          runtime.configuredLexicalFields runtime.configuredLexicalAnalyzer runtime.segments =
            .ok (index, published) →
        published.files[runtime.lexicalFingerprint checkpoint]? = some bytes := by
  have hrecovered := recoverLexical_of_undecodable hcheckpoint hfile hdecode
  have hkept : ∀ index published, (recoverLexical runtime store).2.rebuildAndPublish checkpoint
      runtime.configuredLexicalFields runtime.configuredLexicalAnalyzer runtime.segments =
        .ok (index, published) →
      published.files[runtime.lexicalFingerprint checkpoint]? = some bytes := by
    intro index published hpublish
    rw [hrecovered] at hpublish
    rw [rebuildAndPublish_of_file hfile hpublish]
    exact hfile
  refine ⟨fun h => ?_, fun request control hits h => ?_, hkept⟩
  · obtain ⟨index, published, hpublish, other, snapshot, hother, hsnapshot⟩ := h.replaced
    rw [hkept index published hpublish] at hother
    cases hother
    rw [hdecode] at hsnapshot
    cases hsnapshot
  · obtain ⟨prepared, hprepared⟩ := prepare_of_executeQueryV1 h
    rw [recoverLexical_runtime] at hprepared
    exact queryAfterRecovery_of_undecodable hmutable hcheckpoint hfile hdecode hprepared control

end Corrupt

/-! ### A snapshot file cut to nothing -/

section Guide

open LexicalIndexStore

def guideRecord : Record := { titledRecord with vector := ⟨[.one], by decide⟩ }

def guideSegment : Segment := { titledSegment with records := [guideRecord] }

def guideConfig : CollectionConfig :=
  ⟨titledCollection, 1, by decide, .l2, [titleField], .default, none⟩

/-- As recovered from one segment and an empty log. -/
def guideRuntime : CollectionRuntime :=
  .writable none guideConfig [guideSegment] [] (some ⟨.durable, none⟩) (some titledCheckpoint)

def guideFingerprint : UInt64 := guideRuntime.lexicalFingerprint titledCheckpoint

def guideIndex : LexicalIndex :=
  { titledIndex guideFingerprint with documents := [⟨guideRecord, 1⟩] }

def guideRequest : QueryV1Request :=
  ⟨titledCollection, none, "rust", 1, none, .auto, none, none, 60, none⟩

/-- The store after a crash emptied the file. -/
def emptiedStore : LexicalIndexStore :=
  ⟨(∅ : Std.ExtTreeMap UInt64 Bytes compare).insert guideFingerprint []⟩

theorem decodeSnapshot_nil : decodeSnapshot [] = .error (.corrupt "truncated lexical header") :=
  rfl

theorem emptiedStore_file : emptiedStore.files[guideFingerprint]? = some [] :=
  Std.ExtTreeMap.getElem?_insert_self

theorem emptiedStore_without :
    (emptiedStore.without guideFingerprint).files[guideFingerprint]? = none :=
  Std.ExtTreeMap.getElem?_erase_self

theorem build_guide : @LexicalIndex.build asciiTables unitArith [guideSegment] titledCollection
    [titleField] .default guideFingerprint = .ok guideIndex := by
  have hvisible : visibleRecords [guideSegment] titledCollection = [guideRecord] :=
    visibleRecords_of_segment (List.pairwise_singleton ..) rfl
  unfold LexicalIndex.build
  rw [if_neg (by decide), hvisible]
  rfl

theorem search_guide : @LexicalIndex.searchWithControl asciiTables unitArith guideIndex "rust" 1
    none .unbounded = .ok [⟨guideRecord, .half⟩] := by
  have hterms : Lib.SortedSet.sortDedup (@analyze asciiTables .default "rust") = ["rust"] := by
    show Lib.SortedSet.sortDedup ["rust"] = _
    rw [Lib.SortedSet.sortDedup_singleton]
  unfold LexicalIndex.searchWithControl
  rw [show guideIndex.analyzer = .default from rfl, hterms]
  show Except.ok (([(⟨guideRecord, F32.half⟩ : LexicalIndexHit)].mergeSort
    fun left right => (LexicalIndex.compareHits left right).isLE).take 1) = _
  rw [List.mergeSort_singleton]
  rfl

theorem prepare_guide : @prepare asciiTables guideRuntime guideRequest =
    .ok ⟨[guideSegment], ⟨"rust", [titleField], .default⟩, none⟩ :=
  rfl

theorem answer_guide : @answer asciiTables unitArith ℝ _ guideRuntime guideRequest
    ⟨[guideSegment], ⟨"rust", [titleField], .default⟩, none⟩ .unbounded (.ok (some guideIndex)) =
      .ok [⟨.unsigned 1, .half, 1, guideRecord.metadata, none, some 1, none, some .half⟩] := by
  have hsearch : @HybridQuery.lexicalSearchIndexWithControl asciiTables unitArith guideIndex
      ⟨"rust", [titleField], .default⟩ 1 none .unbounded = .ok [⟨guideRecord, .half⟩] := by
    unfold HybridQuery.lexicalSearchIndexWithControl
    rw [search_guide]
    rfl
  unfold answer searchIndex
  show (do
    let hits ← (do
      let hits ← (@HybridQuery.lexicalSearchIndexWithControl asciiTables unitArith guideIndex
        ⟨"rust", [titleField], .default⟩ 1 none .unbounded).mapError QueryV1Error.ofHybrid
      pure (lexicalHits ℝ guideRequest hits))
    pure (hits.take 1)) = _
  rw [hsearch]
  rfl

/-- Without the file the query finds the record. -/
theorem query_guide : @queryAfterRecovery asciiTables unitArith ℝ _ guideRuntime
    (emptiedStore.without guideFingerprint) guideRequest .unbounded =
      .ok [⟨.unsigned 1, .half, 1, guideRecord.metadata, none, some 1, none, some .half⟩] := by
  obtain ⟨bytes, hbytes⟩ : ∃ bytes, encodeSnapshot (.fromIndex guideIndex) = .ok bytes := ⟨_, rfl⟩
  have hpublish : @LexicalIndexStore.rebuildAndPublish asciiTables unitArith
      (emptiedStore.without guideFingerprint) titledCheckpoint guideRuntime.configuredLexicalFields
      guideRuntime.configuredLexicalAnalyzer guideRuntime.segments = .ok (guideIndex,
        ⟨(emptiedStore.without guideFingerprint).files.insert guideFingerprint bytes⟩) := by
    have hname : (LexicalSnapshot.fromIndex guideIndex).fingerprint = guideFingerprint := rfl
    refine except_bind_ok.mpr ⟨guideIndex, build_guide, except_bind_ok.mpr ⟨_, ?_, rfl⟩⟩
    rw [LexicalIndexStore.publish, hname, emptiedStore_without]
    exact except_bind_ok.mpr ⟨bytes, hbytes, rfl⟩
  rw [@queryAfterRecovery_of_missing asciiTables unitArith ℝ _ guideRuntime titledCheckpoint _ _ _
    rfl rfl (by decide) emptiedStore_without hpublish]
  rw [prepare_guide, except_ok_bind]
  exact answer_guide

theorem not_corruptionHarmless_guide :
    ¬@CorruptionHarmless ℝ asciiTables unitArith _ guideRuntime titledCheckpoint emptiedStore ∧
      ∀ index published, @LexicalIndexStore.rebuildAndPublish asciiTables unitArith
          (@recoverLexical asciiTables unitArith guideRuntime emptiedStore).2 titledCheckpoint
          [titleField] .default [guideSegment] = .ok (index, published) →
        published.files[guideFingerprint]? = some [] := by
  obtain ⟨hharm, -, hkept⟩ := @not_corruptionHarmless asciiTables unitArith ℝ _ guideRuntime
    titledCheckpoint emptiedStore _ _ rfl rfl emptiedStore_file decodeSnapshot_nil
  exact ⟨hharm, hkept⟩

/-- The emptied file turns the hit into an error. -/
theorem not_sameHits_emptied :
    emptiedStore.files[guideRuntime.lexicalFingerprint titledCheckpoint]? = some [] ∧
      decodeSnapshot [] = .error (.corrupt "truncated lexical header") ∧
      ¬@CorruptionHarmless ℝ asciiTables unitArith _ guideRuntime titledCheckpoint emptiedStore := by
  refine ⟨emptiedStore_file, decodeSnapshot_nil, fun h => ?_⟩
  have hquery := @CorruptionHarmless.sameHits _ asciiTables unitArith _ _ _ _ h guideRequest
    .unbounded _ query_guide
  rw [@queryAfterRecovery_of_undecodable asciiTables unitArith ℝ _ guideRuntime titledCheckpoint
    emptiedStore _ _ rfl rfl emptiedStore_file decodeSnapshot_nil _ _ prepare_guide .unbounded]
    at hquery
  cases hquery

end Guide

end LexicalRuntime

end Ketebe
