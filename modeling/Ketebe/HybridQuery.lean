import Ketebe.CostPlanner
import Ketebe.LexicalIndex

/-!
Queries with text. A lexical query searches an index of its fields; a hybrid one
fuses the ranks of the dense and the lexical hits of one predicate.
-/
namespace Ketebe

open Lib.ByteCodec

def maxHybridCandidates : ℕ := 10000

inductive HybridError where
  | emptyLexicalQuery
  | emptyLexicalFields
  | invalidTopK
  | invalidRrfK
  | candidateDepthBelowTopK
  | candidateBudgetExceeded (requested maximum : ℕ)
  | lexicalIndexMismatch
  | predicate (message : String)
  | index (error : LexicalIndexError)
  | dense (error : PlannerError)
  deriving DecidableEq

def HybridError.ofIndexError : LexicalIndexError → HybridError
  | .emptyFields => .emptyLexicalFields
  | .emptyQuery => .emptyLexicalQuery
  | .invalidTopK => .invalidTopK
  | .predicate message => .predicate message
  | other => .index other

structure LexicalQuery where
  text : String
  fields : List FieldPath
  analyzer : LexicalAnalyzerConfig

/-- The text is checked with the default analyzer, whatever analyzer follows. -/
def LexicalQuery.new [Unicode] (text : String) (fields : List FieldPath) :
    Except HybridError LexicalQuery :=
  if analyze .default text = [] then .error .emptyLexicalQuery
  else if fields = [] then .error .emptyLexicalFields
  else .ok ⟨text, fields, .default⟩

theorem LexicalQuery.new_ok [Unicode] {text : String} {fields : List FieldPath}
    {query : LexicalQuery} (h : new text fields = .ok query) : query = ⟨text, fields, .default⟩ := by
  unfold new at h
  split at h
  · cases h
  · split at h
    · cases h
    · cases h
      rfl

def LexicalQuery.withAnalyzer (query : LexicalQuery) (analyzer : LexicalAnalyzerConfig) :
    LexicalQuery :=
  { query with analyzer := analyzer }

structure HybridOptions where
  topK : ℕ
  denseK : ℕ
  lexicalK : ℕ
  rrfK : ℕ
  deriving DecidableEq, Repr

def HybridOptions.new (topK denseK lexicalK rrfK : ℕ) : Except HybridError HybridOptions :=
  if topK = 0 ∨ denseK = 0 ∨ lexicalK = 0 then .error .invalidTopK
  else if rrfK = 0 then .error .invalidRrfK
  else if denseK < topK ∨ lexicalK < topK then .error .candidateDepthBelowTopK
  else if maxHybridCandidates < min (denseK + lexicalK) usizeMax then
    .error (.candidateBudgetExceeded (min (denseK + lexicalK) usizeMax) maxHybridCandidates)
  else .ok ⟨topK, denseK, lexicalK, rrfK⟩

structure LexicalHit where
  record : Record
  score : F32

/-- What the scores of fused ranks are computed with. -/
class FusionArith (R : Type) where
  rankScore : ℕ → ℕ → R
  add : R → R → R
  totalCmp : R → R → Ordering

/-- Reciprocal ranks in the arithmetic of the source; ranks start at one. -/
instance [LexicalArith] : FusionArith F32 where
  rankScore rrfK rank := LexicalArith.div F32.one
    (LexicalArith.add (LexicalArith.ofNat rrfK) (LexicalArith.ofNat rank))
  add := LexicalArith.add
  totalCmp := F32.totalCmp

/-- A fused hit, also while the ranks are still collected. -/
structure FusedHit (R S : Type) where
  record : Record
  score : R
  denseRank : Option ℕ
  lexicalRank : Option ℕ
  denseScore : Option S
  lexicalScore : Option F32

abbrev HybridHit (S : Type) := FusedHit F32 S

structure HybridExplain where
  dense : SearchExplain
  denseCandidates : ℕ
  lexicalCandidates : ℕ
  requestedDenseCandidates : ℕ
  requestedLexicalCandidates : ℕ
  topK : ℕ
  rrfK : ℕ

structure HybridResponse (S : Type) where
  hits : List (HybridHit S)
  explain : HybridExplain

namespace HybridQuery

variable [Unicode] [LexicalArith]

def checkControl (control : QueryControl) : Except HybridError Unit :=
  control.check.mapError fun error => .ofIndexError (.control error)

def lexicalSearchIndexWithControl (index : LexicalIndex) (query : LexicalQuery) (topK : ℕ)
    (predicate : Option Predicate) (control : QueryControl) :
    Except HybridError (List LexicalHit) := do
  checkControl control
  if index.fields ≠ query.fields ∨ index.analyzer ≠ query.analyzer then
    throw .lexicalIndexMismatch
  else do
    let hits ← (index.searchWithControl query.text topK predicate control).mapError .ofIndexError
    pure (hits.map fun hit => ⟨hit.record, hit.score⟩)

/-! ### Fusion -/

section Fusion

variable {R S : Type} [FusionArith R]

abbrev Fused (R S : Type) := Std.ExtTreeMap RecordId (FusedHit R S) compare

def fuseDense (rrfK : ℕ) (control : QueryControl) (fused : Fused R S)
    (entry : PlannedSearchHit S × ℕ) : Except HybridError (Fused R S) := do
  (Search.checkEvery 128 entry.2 control).mapError fun error => .ofIndexError (.control error)
  let rank := entry.2 + 1
  pure (fused.insert entry.1.record.id
    ⟨entry.1.record, FusionArith.rankScore rrfK rank, some rank, none, some entry.1.score, none⟩)

def fuseLexical (rrfK : ℕ) (control : QueryControl) (fused : Fused R S)
    (entry : LexicalHit × ℕ) : Except HybridError (Fused R S) := do
  (Search.checkEvery 128 entry.2 control).mapError fun error => .ofIndexError (.control error)
  let rank := entry.2 + 1
  let score := FusionArith.rankScore rrfK rank
  pure (fused.insert entry.1.record.id (match fused[entry.1.record.id]? with
    | some found => { found with
        score := FusionArith.add found.score score
        lexicalRank := some rank
        lexicalScore := some entry.1.score }
    | none => ⟨entry.1.record, score, none, some rank, none, some entry.1.score⟩))

def compareHits (left right : FusedHit R S) : Ordering :=
  (FusionArith.totalCmp right.score left.score).then (compare left.record.id right.record.id)

/-- The hits of both lists by their ranks. -/
def fuse (rrfK topK : ℕ) (control : QueryControl) (dense : List (PlannedSearchHit S))
    (lexical : List LexicalHit) : Except HybridError (List (FusedHit R S)) := do
  let ranked ← dense.zipIdx.foldlM (fuseDense rrfK control) ∅
  let fused ← lexical.zipIdx.foldlM (fuseLexical rrfK control) ranked
  let hits := (fused.toList.map Prod.snd).mergeSort fun left right => (compareHits left right).isLE
  pure (hits.take topK)

end Fusion

variable (S : Type) [ScoreArith S]

/-- The dense part runs with the depth of its own candidates. -/
def executeHybridQueryWithIndexAndOptionsAndControl (request : QueryRequest) (query : LexicalQuery)
    (index : LexicalIndex) (segments : List Segment) (hnsw : Option HnswIndex)
    (options : HybridOptions) (control : QueryControl) :
    Except HybridError (HybridResponse S) := do
  checkControl control
  let options ← HybridOptions.new options.topK options.denseK options.lexicalK options.rrfK
  if index.collectionId ≠ request.collectionId ∨ index.fields ≠ query.fields then
    throw .lexicalIndexMismatch
  else do
    let dense ← (CostPlanner.executeQueryWithConfigAndControl S
      { request with topK := options.denseK } segments hnsw ⟨defaultAnnMinRecords⟩
      control).mapError .dense
    checkControl control
    let lexical ← lexicalSearchIndexWithControl index query options.lexicalK request.predicate control
    let hits ← fuse options.rrfK options.topK control dense.hits lexical
    pure ⟨hits, dense.explain, dense.hits.length, lexical.length, options.denseK,
      options.lexicalK, options.topK, options.rrfK⟩

end HybridQuery

end Ketebe
