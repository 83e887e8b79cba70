import Ketebe.HybridQuery
import Ketebe.LexicalStore
import Ketebe.Runtime

/-!
The lexical index of a running collection: the cache that recovery and queries
fill, and the queries with text up to reranking and projection.
-/
namespace Ketebe

open Lib.ByteCodec

/-! ### The configured index -/

namespace CollectionRuntime

variable (runtime : CollectionRuntime)

def configuredLexicalFields : List FieldPath :=
  match runtime.config with
  | some config => config.lexicalFields
  | none => []

def configuredLexicalAnalyzer : LexicalAnalyzerConfig :=
  match runtime.config with
  | some config => config.lexicalAnalyzer
  | none => .default

def lexicalFingerprint (checkpoint : Checkpoint) : UInt64 :=
  lexicalCheckpointFingerprint checkpoint runtime.configuredLexicalFields
    runtime.configuredLexicalAnalyzer

/-- The checkpoint whose index answers a query over these fields. -/
def indexedCheckpoint (fields : List FieldPath) : Option Checkpoint :=
  if runtime.mutable ≠ [] then none
  else match runtime.checkpoint with
    | none => none
    | some checkpoint =>
        if runtime.configuredLexicalFields = [] ∨ runtime.configuredLexicalFields ≠ fields then none
        else some checkpoint

end CollectionRuntime

def LexicalIndexStore.garbageCollect (store : LexicalIndexStore) (keep : UInt64) :
    LexicalIndexStore :=
  ⟨store.files.filter fun fingerprint _ => fingerprint = keep⟩

/-- A collection with its cache; it is empty or holds the index installed last. -/
structure LexicalRuntime where
  runtime : CollectionRuntime
  lexicalIndexes : Std.ExtTreeMap UInt64 LexicalIndex compare

namespace LexicalRuntime

def installLexicalIndex (lexical : LexicalRuntime) (fingerprint : UInt64) (index : LexicalIndex) :
    LexicalRuntime :=
  { lexical with
    lexicalIndexes :=
      (∅ : Std.ExtTreeMap UInt64 LexicalIndex compare).insert fingerprint index }

@[simp] theorem installLexicalIndex_runtime (lexical : LexicalRuntime) (fingerprint : UInt64)
    (index : LexicalIndex) : (lexical.installLexicalIndex fingerprint index).runtime =
      lexical.runtime :=
  rfl

@[simp] theorem installLexicalIndex_self (lexical : LexicalRuntime) (fingerprint : UInt64)
    (index : LexicalIndex) :
    (lexical.installLexicalIndex fingerprint index).lexicalIndexes[fingerprint]? = some index :=
  Std.ExtTreeMap.getElem?_insert_self

def queryLexicalIndex (lexical : LexicalRuntime) (store : LexicalIndexStore)
    (fields : List FieldPath) : Except LexicalIndexError (Option LexicalIndex) × LexicalRuntime :=
  match lexical.runtime.indexedCheckpoint fields with
  | none => (.ok none, lexical)
  | some checkpoint =>
      let fingerprint := lexical.runtime.lexicalFingerprint checkpoint
      match lexical.lexicalIndexes[fingerprint]? with
      | some index => (.ok (some index), lexical)
      | none =>
          match store.load checkpoint lexical.runtime.configuredLexicalFields
              lexical.runtime.configuredLexicalAnalyzer lexical.runtime.segments with
          | .error error => (.error error, lexical)
          | .ok (.loaded index) => (.ok (some index), lexical.installLexicalIndex fingerprint index)
          | .ok .missing | .ok .stale => (.ok none, lexical)

theorem indexedCheckpoint_configured {runtime : CollectionRuntime} {checkpoint : Checkpoint}
    (hmutable : runtime.mutable = []) (hcheckpoint : runtime.checkpoint = some checkpoint)
    (hfields : runtime.configuredLexicalFields ≠ []) :
    runtime.indexedCheckpoint runtime.configuredLexicalFields = some checkpoint := by
  unfold CollectionRuntime.indexedCheckpoint
  rw [if_neg (not_not.mpr hmutable), hcheckpoint]
  dsimp only
  rw [if_neg (not_or.mpr ⟨hfields, not_not.mpr rfl⟩)]

/-! ### Recovery -/

section Recovery

variable [Unicode] [LexicalArith]

def restoreOrRebuildLexical (store : LexicalIndexStore) (checkpoint : Checkpoint)
    (fields : List FieldPath) (analyzer : LexicalAnalyzerConfig) (segments : List Segment) :
    Except LexicalIndexError ((UInt64 × LexicalIndex) × LexicalIndexStore) := do
  let fingerprint := lexicalCheckpointFingerprint checkpoint fields analyzer
  let result ← store.load checkpoint fields analyzer segments
  let (index, store) ← match result with
    | .loaded index => pure (index, store)
    | .missing | .stale => store.rebuildAndPublish checkpoint fields analyzer segments
  pure ((fingerprint, index), store.garbageCollect fingerprint)

/-- The end of the recovery of a collection. An error leaves the cache empty. -/
def recoverLexical (runtime : CollectionRuntime) (store : LexicalIndexStore) :
    LexicalRuntime × LexicalIndexStore :=
  match runtime.mutable, runtime.checkpoint with
  | [], some checkpoint =>
      if runtime.configuredLexicalFields = [] then (⟨runtime, ∅⟩, store)
      else match restoreOrRebuildLexical store checkpoint runtime.configuredLexicalFields
          runtime.configuredLexicalAnalyzer runtime.segments with
        | .ok ((fingerprint, index), store) =>
            (installLexicalIndex ⟨runtime, ∅⟩ fingerprint index, store)
        | .error _ => (⟨runtime, ∅⟩, store)
  | _, _ => (⟨runtime, ∅⟩, store)

end Recovery

end LexicalRuntime

/-! ### Queries with text -/

inductive QueryV1Error where
  | lexicalNotConfigured
  | overlay (error : SegmentError)
  | lexicalLifecycle (error : LexicalIndexError)
  | deadlineExceeded
  | cancelled
  | hybrid (error : HybridError)

namespace QueryV1Error

def ofControl : QueryControlError → QueryV1Error
  | .deadlineExceeded => .deadlineExceeded
  | .cancelled => .cancelled

def plannerControlError : PlannerError → Option QueryControlError
  | .exact (.control error) => some error
  | .hnsw (.control error) => some error
  | .filtered (.exact (.control error)) => some error
  | .filtered (.hnsw (.control error)) => some error
  | _ => none

def hybridControlError : HybridError → Option QueryControlError
  | .dense error => plannerControlError error
  | .index (.control error) => some error
  | _ => none

def ofHybrid (error : HybridError) : QueryV1Error :=
  match hybridControlError error with
  | some control => ofControl control
  | none => .hybrid error

end QueryV1Error

/-- An admitted request with text. The vector of a hybrid query is not empty, a
lexical query has none. -/
structure QueryV1Request where
  collectionId : CollectionId
  vector : Option (List F32)
  text : String
  topK : ℕ
  predicate : Option Predicate
  execution : ExecutionPreference
  denseCandidates : Option ℕ
  lexicalCandidates : Option ℕ
  rrfK : ℕ
  rerankTopN : Option ℕ

namespace QueryV1Request

variable (request : QueryV1Request)

def retrievalTopK : ℕ := max (request.rerankTopN.getD request.topK) request.topK

def denseCandidateK : ℕ :=
  max (request.denseCandidates.getD request.retrievalTopK) request.retrievalTopK

def lexicalCandidateK : ℕ :=
  max (request.lexicalCandidates.getD request.retrievalTopK) request.retrievalTopK

end QueryV1Request

structure QueryV1Hit (S : Type) where
  id : RecordId
  score : F32
  sequenceNumber : SequenceNumber
  metadata : Metadata
  denseRank : Option ℕ
  lexicalRank : Option ℕ
  denseScore : Option S
  lexicalScore : Option F32

/-- What a query has settled before it looks for the index. -/
structure PreparedQuery where
  segments : List Segment
  query : LexicalQuery
  options : Option HybridOptions

namespace LexicalRuntime

variable [Unicode] [LexicalArith]

def lexicalQuery (runtime : CollectionRuntime) (text : String) :
    Except QueryV1Error LexicalQuery :=
  if runtime.configuredLexicalFields = [] then .error .lexicalNotConfigured
  else do
    let query ← (LexicalQuery.new text runtime.configuredLexicalFields).mapError .hybrid
    pure (query.withAnalyzer runtime.configuredLexicalAnalyzer)

def hybridOptions (request : QueryV1Request) : Except QueryV1Error (Option HybridOptions) :=
  match request.vector with
  | none => .ok none
  | some _ => do
    let options ← (HybridOptions.new request.retrievalTopK request.denseCandidateK
      request.lexicalCandidateK request.rrfK).mapError .hybrid
    pure (some options)

def prepare (runtime : CollectionRuntime) (request : QueryV1Request) :
    Except QueryV1Error PreparedQuery := do
  let segments ← runtime.querySegments.mapError .overlay
  let query ← lexicalQuery runtime request.text
  let options ← hybridOptions request
  pure ⟨segments, query, options⟩

omit [LexicalArith] in
/-- What a prepared query is over. -/
theorem prepare_ok {runtime : CollectionRuntime} {request : QueryV1Request}
    {prepared : PreparedQuery} (h : prepare runtime request = .ok prepared) :
    runtime.querySegments = .ok prepared.segments ∧
      prepared.query.fields = runtime.configuredLexicalFields ∧
      prepared.query.analyzer = runtime.configuredLexicalAnalyzer ∧
      runtime.configuredLexicalFields ≠ [] := by
  obtain ⟨segments, hsegments, h⟩ := except_bind_ok.mp h
  obtain ⟨query, hquery, h⟩ := except_bind_ok.mp h
  obtain ⟨options, -, h⟩ := except_bind_ok.mp h
  cases h
  unfold lexicalQuery at hquery
  split at hquery
  · cases hquery
  · rename_i hfields
    obtain ⟨checked, hchecked, hquery⟩ := except_bind_ok.mp hquery
    cases hquery
    rw [LexicalQuery.new_ok (mapError_ok_iff.mp hchecked)]
    exact ⟨mapError_ok_iff.mp hsegments, rfl, rfl, hfields⟩

omit [LexicalArith] in
theorem prepare_fields {runtime : CollectionRuntime} {request : QueryV1Request}
    {prepared : PreparedQuery} (h : prepare runtime request = .ok prepared) :
    runtime.configuredLexicalFields ≠ [] ∧
      prepared.query.fields = runtime.configuredLexicalFields :=
  ⟨(prepare_ok h).2.2.2, (prepare_ok h).2.1⟩

section Answer

variable (S : Type)

def lexicalHits (request : QueryV1Request) (hits : List LexicalHit) : List (QueryV1Hit S) :=
  (hits.take request.retrievalTopK).zipIdx.map fun entry =>
    ⟨entry.1.record.id, entry.1.score, entry.1.record.sequenceNumber, entry.1.record.metadata,
      none, some (entry.2 + 1), none, some entry.1.score⟩

def hybridHits {S : Type} (request : QueryV1Request) (hits : List (HybridHit S)) :
    List (QueryV1Hit S) :=
  (hits.take request.retrievalTopK).map fun hit =>
    ⟨hit.record.id, hit.score, hit.record.sequenceNumber, hit.record.metadata, hit.denseRank,
      hit.lexicalRank, hit.denseScore, hit.lexicalScore⟩

/-- The index for a query that found none in the store. -/
def buildForQuery (request : QueryV1Request) (prepared : PreparedQuery) (control : QueryControl) :
    Except QueryV1Error LexicalIndex := do
  let index ← (LexicalIndex.build prepared.segments request.collectionId prepared.query.fields
    prepared.query.analyzer 0).mapError fun error => .ofHybrid (.ofIndexError error)
  control.check.mapError .ofControl
  pure index

variable [ScoreArith S]

def searchIndex (runtime : CollectionRuntime) (request : QueryV1Request) (prepared : PreparedQuery)
    (index : LexicalIndex) (control : QueryControl) : Except QueryV1Error (List (QueryV1Hit S)) :=
  match request.vector, prepared.options with
  | some vector, some options => do
    let result ← (HybridQuery.executeHybridQueryWithIndexAndOptionsAndControl S
      ⟨request.collectionId, vector, runtime.metric, request.retrievalTopK, request.predicate,
        request.execution⟩
      prepared.query index prepared.segments runtime.queryHnsw options control).mapError .ofHybrid
    pure (hybridHits request result.hits)
  | _, _ => do
    let hits ← (HybridQuery.lexicalSearchIndexWithControl index prepared.query
      request.lexicalCandidateK request.predicate control).mapError .ofHybrid
    pure (lexicalHits S request hits)

/-- Without a reranker the hits are cut to the requested number. -/
def answer (runtime : CollectionRuntime) (request : QueryV1Request) (prepared : PreparedQuery)
    (control : QueryControl) (persistent : Except LexicalIndexError (Option LexicalIndex)) :
    Except QueryV1Error (List (QueryV1Hit S)) := do
  let found ← persistent.mapError .lexicalLifecycle
  control.check.mapError .ofControl
  let index ← match found with
    | some index => pure index
    | none => buildForQuery request prepared control
  let hits ← searchIndex S runtime request prepared index control
  pure (if request.rerankTopN.isSome then hits else hits.take request.topK)

/-- A query before reranking and projection. -/
def executeQueryV1 (lexical : LexicalRuntime) (store : LexicalIndexStore)
    (request : QueryV1Request) (control : QueryControl) :
    Except QueryV1Error (List (QueryV1Hit S)) × LexicalRuntime :=
  match prepare lexical.runtime request with
  | .error error => (.error error, lexical)
  | .ok prepared =>
      let (persistent, next) := lexical.queryLexicalIndex store prepared.query.fields
      (answer S lexical.runtime request prepared control persistent, next)

/-- The query that follows recovery. -/
def queryAfterRecovery (runtime : CollectionRuntime) (store : LexicalIndexStore)
    (request : QueryV1Request) (control : QueryControl) :
    Except QueryV1Error (List (QueryV1Hit S)) :=
  ((recoverLexical runtime store).1.executeQueryV1 S (recoverLexical runtime store).2 request
    control).1

end Answer

end LexicalRuntime

end Ketebe
