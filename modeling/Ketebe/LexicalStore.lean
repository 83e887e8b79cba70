import Ketebe.LexicalSnapshot

/-!
The stored lexical indexes of a collection, one file for each fingerprint of a
checkpoint with its fields and analyzer. What is loaded searches as a fresh build.
-/
namespace Ketebe

open Lib.ByteCodec LexicalSnapshotFile

inductive LexicalLoadResult where
  | loaded (index : LexicalIndex)
  | missing
  | stale

/-- The files in the directory of the store, under the fingerprints of their names. -/
structure LexicalIndexStore where
  files : Std.ExtTreeMap UInt64 Bytes compare

namespace LexicalIndexStore

def load (store : LexicalIndexStore) (checkpoint : Checkpoint) (fields : List FieldPath)
    (analyzer : LexicalAnalyzerConfig) (segments : List Segment) :
    Except LexicalIndexError LexicalLoadResult :=
  let fingerprint := lexicalCheckpointFingerprint checkpoint fields analyzer
  match store.files[fingerprint]? with
  | none => .ok .missing
  | some bytes => do
    let snapshot ← decodeSnapshot bytes
    if snapshot.fingerprint ≠ fingerprint ∨ snapshot.collectionId ≠ checkpoint.collectionId ∨
        snapshot.fields ≠ fields ∨ snapshot.analyzer ≠ analyzer then pure .stale
    else match snapshot.hydrate segments checkpoint.collectionId with
      | some index => pure (.loaded index)
      | none => pure .stale

/-- A file that exists is kept, whatever its content. -/
def publish (store : LexicalIndexStore) (snapshot : LexicalSnapshot) :
    Except LexicalIndexError LexicalIndexStore :=
  match store.files[snapshot.fingerprint]? with
  | some _ => .ok store
  | none => do
    let bytes ← encodeSnapshot snapshot
    pure ⟨store.files.insert snapshot.fingerprint bytes⟩

section Publish

variable [Unicode] [LexicalArith]

def rebuildAndPublish (store : LexicalIndexStore) (checkpoint : Checkpoint)
    (fields : List FieldPath) (analyzer : LexicalAnalyzerConfig) (segments : List Segment) :
    Except LexicalIndexError (LexicalIndex × LexicalIndexStore) := do
  let index ← LexicalIndex.build segments checkpoint.collectionId fields analyzer
    (lexicalCheckpointFingerprint checkpoint fields analyzer)
  let store ← store.publish (.fromIndex index)
  pure (index, store)

/-! ### Loading what was published -/

variable {store published : LexicalIndexStore} {checkpoint : Checkpoint} {fields : List FieldPath}
  {analyzer : LexicalAnalyzerConfig} {segments : List Segment} {index : LexicalIndex}

/-- A stored build is read back as it was. -/
theorem decodeSnapshot_build {collectionId : CollectionId} {fingerprint : UInt64} {bytes : Bytes}
    (hbuilt : LexicalIndex.build segments collectionId fields analyzer fingerprint = .ok index)
    (hbytes : encodeSnapshot (.fromIndex index) = .ok bytes) :
    decodeSnapshot bytes = .ok (.fromIndex index) := by
  obtain ⟨-, -, -, -, hvalid⟩ := LexicalIndex.build_valid hbuilt
  have hpostings := hvalid.postings
  have hlength : (index.documents.map fun document : IndexedDocument =>
      (⟨document.record.id, document.record.sequenceNumber, document.length⟩ :
        SnapshotDocument)).length = index.documents.length := List.length_map _
  rw [← hlength] at hpostings
  exact decodeSnapshot_encodeSnapshot hpostings hvalid.average hbytes

/-- A published file holds the snapshot of a valid index for the same inputs. -/
theorem rebuildAndPublish_ok
    (hmissing : store.files[lexicalCheckpointFingerprint checkpoint fields analyzer]? = none)
    (h : store.rebuildAndPublish checkpoint fields analyzer segments = .ok (index, published)) :
    LexicalIndex.build segments checkpoint.collectionId fields analyzer
        (lexicalCheckpointFingerprint checkpoint fields analyzer) = .ok index ∧
      ∃ bytes, published.files = store.files.insert
          (lexicalCheckpointFingerprint checkpoint fields analyzer) bytes ∧
        encodeSnapshot (.fromIndex index) = .ok bytes := by
  obtain ⟨built, hbuilt, h⟩ := except_bind_ok.mp h
  obtain ⟨written, hwritten, h⟩ := except_bind_ok.mp h
  cases h
  refine ⟨hbuilt, ?_⟩
  obtain ⟨-, -, -, hfingerprint, -⟩ := LexicalIndex.build_valid hbuilt
  have hname : (LexicalSnapshot.fromIndex index).fingerprint =
      lexicalCheckpointFingerprint checkpoint fields analyzer := hfingerprint
  rw [publish, hname, hmissing] at hwritten
  obtain ⟨bytes, hbytes, hwritten⟩ := except_bind_ok.mp hwritten
  cases hwritten
  exact ⟨bytes, rfl, hbytes⟩

/-- What loading the file of a build for its own inputs comes to. -/
theorem load_of_file {bytes : Bytes} (others : List Segment)
    (hbuilt : LexicalIndex.build segments checkpoint.collectionId fields analyzer
      (lexicalCheckpointFingerprint checkpoint fields analyzer) = .ok index)
    (hfile : store.files[lexicalCheckpointFingerprint checkpoint fields analyzer]? = some bytes)
    (hdecode : decodeSnapshot bytes = .ok (.fromIndex index)) :
    store.load checkpoint fields analyzer others =
      match (LexicalSnapshot.fromIndex index).hydrate others checkpoint.collectionId with
      | some restored => .ok (.loaded restored)
      | none => .ok .stale := by
  obtain ⟨hcollection, hfields, hanalyzer, hfingerprint, -⟩ := LexicalIndex.build_valid hbuilt
  rw [load, hfile]
  dsimp only
  rw [hdecode, except_ok_bind, if_neg]
  · cases (LexicalSnapshot.fromIndex index).hydrate others checkpoint.collectionId <;> rfl
  · rw [not_or, not_or, not_or, not_not, not_not, not_not, not_not]
    exact ⟨hfingerprint, hcollection, hfields, hanalyzer⟩

/-- The fingerprint is only stored in the index. -/
theorem build_withFingerprint {fingerprint : UInt64}
    (h : LexicalIndex.build segments checkpoint.collectionId fields analyzer fingerprint =
      .ok index) (other : UInt64) :
    LexicalIndex.build segments checkpoint.collectionId fields analyzer other =
      .ok { index with sourceFingerprint := other } := by
  unfold LexicalIndex.build at h ⊢
  split at h
  · cases h
  · rename_i hfields
    obtain ⟨draft, hdraft, h⟩ := except_bind_ok.mp h
    cases h
    rw [if_neg hfields, hdraft]
    rfl

/-- A published index searches as a fresh build over the same segments. Over others
it is used only where the same versions are visible. -/
theorem load_rebuildAndPublish
    (hmissing : store.files[lexicalCheckpointFingerprint checkpoint fields analyzer]? = none)
    (hpublish : store.rebuildAndPublish checkpoint fields analyzer segments =
      .ok (index, published)) :
    (∃ loaded, published.load checkpoint fields analyzer segments = .ok (.loaded loaded) ∧
      ∀ fingerprint, ∃ fresh, LexicalIndex.build segments checkpoint.collectionId fields analyzer
          fingerprint = .ok fresh ∧
        ∀ text topK predicate control, loaded.searchWithControl text topK predicate control =
          fresh.searchWithControl text topK predicate control) ∧
    ∀ others loaded, published.load checkpoint fields analyzer others = .ok (.loaded loaded) →
      ∀ id sequence, LexicalSnapshot.Shows others checkpoint.collectionId id sequence ↔
        LexicalSnapshot.Shows segments checkpoint.collectionId id sequence := by
  obtain ⟨hbuilt, bytes, hfiles, hbytes⟩ := rebuildAndPublish_ok hmissing hpublish
  obtain ⟨-, -, -, -, hvalid⟩ := LexicalIndex.build_valid hbuilt
  have hdecode := decodeSnapshot_build hbuilt hbytes
  have hfile : published.files[lexicalCheckpointFingerprint checkpoint fields analyzer]? =
      some bytes := by
    rw [hfiles]
    exact Std.ExtTreeMap.getElem?_insert_self
  constructor
  · refine ⟨index, ?_, fun fingerprint => ⟨_, build_withFingerprint hbuilt fingerprint, ?_⟩⟩
    · rw [load_of_file segments hbuilt hfile hdecode, LexicalSnapshot.hydrate_fromIndex hvalid]
    · exact fun text topK predicate control => rfl
  · intro others loaded hload id sequence
    rw [load_of_file others hbuilt hfile hdecode] at hload
    split at hload
    · rename_i restored hrestored
      exact LexicalSnapshot.shows_iff_of_hydrate hvalid hrestored id sequence
    · cases hload

end Publish

/-! ### One record of one token -/

@[reducible] def asciiTables : Unicode where
  isAlphanumeric := Char.isAlphanum
  toLowercase character := [character.toLower]

/-- Exact where counts are zero or one. -/
@[reducible] def unitArith : LexicalArith where
  ofNat value := if value = 0 then .zero else .one
  add left right := if right = .zero then left else right
  sub left _ := left
  mul left _ := left
  div left _ := left
  ln value := value
  ofNat_lt := by
    intro value _
    split <;> decide
  one_le_ofNat := by
    intro value hpos _
    rw [if_neg hpos.ne']
    decide
  div_lt hleft _ _ := hleft

def titleField : FieldPath := ⟨"title", [], FieldPath.nonempty_title⟩

def titledRecord : Record :=
  ⟨.unsigned 1, ⟨[], Vector.finite_nil⟩, ⟨[("title", .string "rust")], by simp [OrderedFields, MetadataValue.Ordered]⟩, 1⟩

def titledCollection : CollectionId := ⟨"a", CollectionId.validate_a⟩

def titledSegment : Segment := ⟨1, titledCollection, 1, 1, [titledRecord], []⟩

def titledCheckpoint : Checkpoint := ⟨titledCollection, [1], 1, List.pairwise_singleton ..⟩

def titledIndex (fingerprint : UInt64) : LexicalIndex where
  collectionId := titledCollection
  fields := [titleField]
  sourceFingerprint := fingerprint
  analyzer := .default
  documents := [⟨titledRecord, 1⟩]
  postings := (∅ : Postings).insert "rust" [⟨0, 1⟩]
  averageLength := .one

theorem build_titled (fingerprint : UInt64) :
    @LexicalIndex.build asciiTables unitArith [titledSegment] titledCollection [titleField] .default
      fingerprint = .ok (titledIndex fingerprint) := by
  have hvisible : visibleRecords [titledSegment] titledCollection = [titledRecord] :=
    visibleRecords_of_segment (List.pairwise_singleton ..) rfl
  unfold LexicalIndex.build
  rw [if_neg (by decide), hvisible]
  rfl

theorem rebuildAndPublish_titled : ∃ published,
    @rebuildAndPublish asciiTables unitArith ⟨∅⟩ titledCheckpoint [titleField] .default
      [titledSegment] = .ok (titledIndex
        (lexicalCheckpointFingerprint titledCheckpoint [titleField] .default), published) := by
  obtain ⟨bytes, hbytes⟩ : ∃ bytes, encodeSnapshot (.fromIndex (titledIndex
      (lexicalCheckpointFingerprint titledCheckpoint [titleField] .default))) = .ok bytes :=
    ⟨_, rfl⟩
  have hpublish : publish ⟨∅⟩ (.fromIndex (titledIndex
      (lexicalCheckpointFingerprint titledCheckpoint [titleField] .default))) =
        .ok ⟨(∅ : Std.ExtTreeMap UInt64 Bytes compare).insert
          (lexicalCheckpointFingerprint titledCheckpoint [titleField] .default) bytes⟩ := by
    rw [publish, Std.ExtTreeMap.getElem?_empty]
    exact except_bind_ok.mpr ⟨bytes, hbytes, rfl⟩
  exact ⟨_, except_bind_ok.mpr ⟨_, build_titled _, except_bind_ok.mpr ⟨_, hpublish, rfl⟩⟩⟩

theorem load_rebuildAndPublish_titled : ∃ published : LexicalIndexStore,
    (∃ loaded, published.load titledCheckpoint [titleField] .default [titledSegment] =
        .ok (.loaded loaded) ∧
      ∃ fresh, @LexicalIndex.build asciiTables unitArith [titledSegment] titledCollection
          [titleField] .default 0 = .ok fresh ∧
        @LexicalIndex.search asciiTables unitArith loaded "go" 10 none =
          @LexicalIndex.search asciiTables unitArith fresh "go" 10 none) ∧
    ∀ loaded, published.load titledCheckpoint [titleField] .default [] = .ok (.loaded loaded) →
      ∀ id sequence, LexicalSnapshot.Shows [] titledCollection id sequence ↔
        LexicalSnapshot.Shows [titledSegment] titledCollection id sequence := by
  obtain ⟨published, hpublish⟩ := rebuildAndPublish_titled
  obtain ⟨⟨loaded, hload, hfresh⟩, hothers⟩ := @load_rebuildAndPublish asciiTables unitArith _ _ _ _ _
    _ _ Std.ExtTreeMap.getElem?_empty hpublish
  obtain ⟨fresh, hbuild, hsearch⟩ := hfresh 0
  exact ⟨published, ⟨loaded, hload, fresh, hbuild, hsearch "go" 10 none .unbounded⟩, hothers []⟩

end LexicalIndexStore

end Ketebe
