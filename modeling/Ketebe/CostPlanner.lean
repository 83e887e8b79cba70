import Ketebe.HnswBuild

/-!
The query planner. A request is executed exactly or through the HNSW index;
under `Auto` the planner chooses from the corpus size, the filter and the
presence of an index, but not from what the index can answer.
-/
namespace Ketebe

open Lib.ByteCodec Lib.LatestVersion

inductive FilteredSearchError where
  | exact (error : SearchError)
  | hnsw (error : HnswError)
  | predicate (error : PredicateError)
  deriving DecidableEq, Repr

/-- The largest `usize`. -/
def usizeMax : ℕ := 2 ^ 64 - 1

namespace Filter

variable {S : Type} [ScoreArith S] {H : Type}

/-- The loop that keeps the first `topK` hits the predicate selects. The control
is checked at every `period`th hit. -/
def selectHits (period : ℕ) (liftControl : QueryControlError → FilteredSearchError)
    (recordOf : H → Record) (predicate : Predicate) (topK : ℕ) (control : QueryControl) :
    ℕ → List H → List H → Except FilteredSearchError (List H)
  | _, filtered, [] => pure filtered
  | position, filtered, hit :: rest => do
    (Search.checkEvery period position control).mapError liftControl
    let selected ←
      (predicate.evaluate (recordOf hit).metadata).mapError FilteredSearchError.predicate
    let kept := if selected then filtered ++ [hit] else filtered
    if selected ∧ kept.length = topK then pure kept
    else selectHits period liftControl recordOf predicate topK control (position + 1) kept rest

def exactSearchFilteredSegmentsWithControl (S : Type) [ScoreArith S] (segments : List Segment)
    (collectionId : CollectionId) (query : List F32) (metric : DistanceMetric) (topK : ℕ)
    (predicate : Predicate) (control : QueryControl) :
    Except FilteredSearchError (List (SearchHit S)) := do
  if topK = 0 then throw (.exact .invalidTopK)
  else do
    let hits ← (Search.exactSearchSegmentsWithControl S segments collectionId query metric usizeMax
      control).mapError FilteredSearchError.exact
    selectHits 256 (fun error => .exact (.control error)) SearchHit.record predicate topK control
      0 [] hits

def hnswSearchFilteredWithControl (S : Type) [ScoreArith S] (index : HnswIndex) (query : List F32)
    (topK : ℕ) (predicate : Predicate) (control : QueryControl) :
    Except FilteredSearchError (List (HnswHit S)) := do
  if topK = 0 then throw (.hnsw .invalidTopK)
  else do
    let candidates ← (index.searchWithControl S query index.config.efSearch control).mapError
      FilteredSearchError.hnsw
    selectHits 64 (fun error => .hnsw (.control error)) HnswHit.record predicate topK control
      0 [] candidates

end Filter

/-! ### Plans -/

def defaultAnnMinRecords : ℕ := 1024

structure PlannerConfig where
  annMinRecords : ℕ
  deriving DecidableEq, Repr

inductive ExecutionPreference where
  | auto
  | exact
  | hnsw
  deriving DecidableEq, Repr

inductive ExecutionStrategy where
  | exact
  | hnsw
  | hnswPostFilter
  deriving DecidableEq, Repr

inductive PlanReason where
  | explicitExact
  | explicitHnsw
  | explicitHnswWithPredicate
  | autoHnswAvailable
  | autoHnswWithPredicate
  | autoExactFallbackNoHnsw
  deriving DecidableEq, Repr

inductive CostReason where
  | notApplicable
  | noHnsw
  | smallCorpus
  | filteredExactConservative
  | annThresholdReached
  deriving DecidableEq, Repr

structure QueryRequest where
  collectionId : CollectionId
  vector : List F32
  metric : DistanceMetric
  topK : ℕ
  predicate : Option Predicate
  preference : ExecutionPreference

structure QueryPlan where
  strategy : ExecutionStrategy
  reason : PlanReason
  costReason : CostReason
  candidateLimit : Option ℕ
  fallback : Bool
  deriving DecidableEq, Repr

structure SearchExplain where
  plan : QueryPlan
  collectionId : CollectionId
  metric : DistanceMetric
  topK : ℕ
  hasPredicate : Bool
  corpusSize : ℕ
  annMinRecords : ℕ
  deriving DecidableEq

structure PlannedSearchHit (S : Type) where
  record : Record
  score : S

structure QueryResponse (S : Type) where
  hits : List (PlannedSearchHit S)
  explain : SearchExplain

inductive PlannerError where
  | missingHnswIndex
  | hnswCollectionMismatch (query index : CollectionId)
  | exact (error : SearchError)
  | hnsw (error : HnswError)
  | filtered (error : FilteredSearchError)
  deriving DecidableEq

namespace CostPlanner

def planQuery (request : QueryRequest) (hnsw : Option HnswIndex) (corpusSize : ℕ)
    (config : PlannerConfig) : Except PlannerError QueryPlan :=
  match request.preference with
  | .exact => .ok ⟨.exact, .explicitExact, .notApplicable, none, false⟩
  | .hnsw =>
      match hnsw with
      | none => .error .missingHnswIndex
      | some index =>
          if request.predicate.isSome then
            .ok ⟨.hnswPostFilter, .explicitHnswWithPredicate, .notApplicable,
              some index.config.efSearch, false⟩
          else
            .ok ⟨.hnsw, .explicitHnsw, .notApplicable, some index.config.efSearch, false⟩
  | .auto =>
      match hnsw with
      | none => .ok ⟨.exact, .autoExactFallbackNoHnsw, .noHnsw, none, true⟩
      | some index =>
          if request.predicate.isSome then
            .ok ⟨.exact, .autoHnswWithPredicate, .filteredExactConservative, none, true⟩
          else if corpusSize < config.annMinRecords then
            .ok ⟨.exact, .autoHnswAvailable, .smallCorpus, none, true⟩
          else
            .ok ⟨.hnsw, .autoHnswAvailable, .annThresholdReached, some index.config.efSearch, false⟩

def visibleRecordCount (segments : List Segment) (collection : CollectionId) : ℕ :=
  ((versionsOf (fold (versionsIn segments collection))).filter fun v => v.value.isSome).length

section Execute

variable (S : Type) [ScoreArith S]

def executeExactControlled (request : QueryRequest) (segments : List Segment)
    (control : QueryControl) : Except PlannerError (List (PlannedSearchHit S)) := do
  let hits ← match request.predicate with
    | some predicate =>
        (Filter.exactSearchFilteredSegmentsWithControl S segments request.collectionId
          request.vector request.metric request.topK predicate control).mapError
            PlannerError.filtered
    | none =>
        (Search.exactSearchSegmentsWithControl S segments request.collectionId request.vector
          request.metric request.topK control).mapError PlannerError.exact
  pure (hits.map fun hit => ⟨hit.record, hit.score⟩)

/-- A plan that needs the index or the predicate has it; the source panics otherwise. -/
def expectPresent {α : Type} (message : String) : Option α → Except PlannerError α
  | some value => .ok value
  | none => .error (.hnsw (.panicked message))

def executePlan (request : QueryRequest) (segments : List Segment) (hnsw : Option HnswIndex)
    (control : QueryControl) :
    ExecutionStrategy → Except PlannerError (List (PlannedSearchHit S))
  | .exact => executeExactControlled S request segments control
  | .hnsw => do
    let index ← expectPresent "HNSW plan requires index" hnsw
    let hits ← (index.searchWithControl S request.vector request.topK control).mapError
      PlannerError.hnsw
    pure (hits.map fun hit => ⟨hit.record, hit.score⟩)
  | .hnswPostFilter => do
    let index ← expectPresent "HNSW plan requires index" hnsw
    let predicate ← expectPresent "predicate required" request.predicate
    let hits ← (Filter.hnswSearchFilteredWithControl S index request.vector request.topK predicate
      control).mapError PlannerError.filtered
    pure (hits.map fun hit => ⟨hit.record, hit.score⟩)

/-- An index of another collection is refused whatever the plan. -/
def checkIndex (request : QueryRequest) : Option HnswIndex → Except PlannerError Unit
  | some index =>
      if index.collectionId ≠ request.collectionId then
        .error (.hnswCollectionMismatch request.collectionId index.collectionId)
      else .ok ()
  | none => .ok ()

def executeQueryWithConfigAndControl (request : QueryRequest) (segments : List Segment)
    (hnsw : Option HnswIndex) (config : PlannerConfig) (control : QueryControl) :
    Except PlannerError (QueryResponse S) := do
  control.check.mapError fun error => PlannerError.exact (.control error)
  checkIndex request hnsw
  let corpusSize := visibleRecordCount segments request.collectionId
  let plan ← planQuery request hnsw corpusSize config
  let hits ← executePlan S request segments hnsw control plan.strategy
  pure ⟨hits, plan, request.collectionId, request.metric, request.topK, request.predicate.isSome,
    corpusSize, config.annMinRecords⟩

end Execute

/-! ### Auto against Exact -/

section Admission

variable {S : Type} [ScoreArith S] {request : QueryRequest} {segments : List Segment}
  {hnsw : Option HnswIndex} {config : PlannerConfig} {control : QueryControl}

theorem executeQuery_ok_iff :
    (∃ response, executeQueryWithConfigAndControl S request segments hnsw config control =
      .ok response) ↔ control.check = .ok () ∧ checkIndex request hnsw = .ok () ∧
        ∃ plan, planQuery request hnsw (visibleRecordCount segments request.collectionId) config =
          .ok plan ∧ ∃ hits, executePlan S request segments hnsw control plan.strategy = .ok hits := by
  constructor
  · rintro ⟨response, h⟩
    obtain ⟨⟨⟩, hcontrol, h⟩ := except_bind_ok.mp h
    obtain ⟨⟨⟩, hindex, h⟩ := except_bind_ok.mp h
    obtain ⟨plan, hplan, h⟩ := except_bind_ok.mp h
    obtain ⟨hits, hhits, -⟩ := except_bind_ok.mp h
    exact ⟨mapError_ok_iff.mp hcontrol, hindex, plan, hplan, hits, hhits⟩
  · rintro ⟨hcontrol, hindex, plan, hplan, hits, hhits⟩
    exact ⟨_, except_bind_ok.mpr ⟨(), mapError_ok_iff.mpr hcontrol, except_bind_ok.mpr ⟨(), hindex,
      except_bind_ok.mpr ⟨plan, hplan, except_bind_ok.mpr ⟨hits, hhits, rfl⟩⟩⟩⟩⟩

theorem executeExact_ok_iff (hpredicate : request.predicate = none) :
    (∃ hits, executeExactControlled S request segments control = .ok hits) ↔
      ∃ hits, Search.exactSearchSegmentsWithControl S segments request.collectionId
        request.vector request.metric request.topK control = .ok hits := by
  unfold executeExactControlled
  rw [hpredicate]
  constructor
  · rintro ⟨_, h⟩
    obtain ⟨hits, hhits, -⟩ := except_bind_ok.mp h
    exact ⟨hits, mapError_ok_iff.mp hhits⟩
  · rintro ⟨hits, hhits⟩
    exact ⟨_, except_bind_ok.mpr ⟨hits, mapError_ok_iff.mpr hhits, rfl⟩⟩

/-- `Auto` hands the request to this index. -/
def ChoosesIndex (request : QueryRequest) (hnsw : Option HnswIndex) (corpusSize : ℕ)
    (config : PlannerConfig) (index : HnswIndex) : Prop :=
  hnsw = some index ∧ request.predicate = none ∧ config.annMinRecords ≤ corpusSize

theorem planQuery_auto (request : QueryRequest) (hnsw : Option HnswIndex) (corpusSize : ℕ)
    (config : PlannerConfig) :
    (∃ index plan, ChoosesIndex request hnsw corpusSize config index ∧ plan.strategy = .hnsw ∧
      planQuery { request with preference := .auto } hnsw corpusSize config = .ok plan) ∨
    (∀ index, ¬ChoosesIndex request hnsw corpusSize config index) ∧ ∃ plan, plan.strategy = .exact ∧
      planQuery { request with preference := .auto } hnsw corpusSize config = .ok plan := by
  cases hnsw with
  | none => exact Or.inr ⟨fun _ h => absurd h.1 nofun, _, rfl, rfl⟩
  | some index =>
    by_cases hpredicate : request.predicate = none
    · by_cases hsmall : corpusSize < config.annMinRecords
      · refine Or.inr ⟨fun _ h => absurd hsmall (not_lt.mpr h.2.2),
          ⟨.exact, .autoHnswAvailable, .smallCorpus, none, true⟩, rfl, ?_⟩
        simp only [planQuery, hpredicate, hsmall, if_true]
        rfl
      · refine Or.inl ⟨index, ⟨.hnsw, .autoHnswAvailable, .annThresholdReached,
          some index.config.efSearch, false⟩, ⟨rfl, hpredicate, not_lt.mp hsmall⟩, rfl, ?_⟩
        simp only [planQuery, hpredicate, hsmall, if_false]
        rfl
    · have hsome : request.predicate.isSome := Option.isSome_iff_ne_none.mpr hpredicate
      refine Or.inr ⟨fun _ h => absurd h.2.1 hpredicate,
        ⟨.exact, .autoHnswWithPredicate, .filteredExactConservative, none, true⟩, rfl, ?_⟩
      simp only [planQuery, hsome, if_true]

/-- What the index demands of a request that `Auto` hands to it. -/
def IndexAdmits (S : Type) [ScoreArith S] (request : QueryRequest) (segments : List Segment)
    (hnsw : Option HnswIndex) (config : PlannerConfig) : Prop :=
  ∀ index, ChoosesIndex request hnsw (visibleRecordCount segments request.collectionId) config
    index → request.topK ≤ index.config.efSearch ∧
      (index.metric = .cosine → ¬hasZeroNorm S request.vector)

/-- A request that succeeds exactly passes all checks of the index but two. -/
theorem search_ok_iff_of_exact {index : HnswIndex} {collectionId : CollectionId}
    {metric : DistanceMetric} {indexConfig : HnswConfig}
    (hbuild : HnswIndex.build S segments collectionId metric indexConfig = .ok index)
    (hcollection : index.collectionId = request.collectionId)
    (hexact : ∃ hits, Search.exactSearchSegmentsWithControl S segments request.collectionId
      request.vector request.metric request.topK control = .ok hits) :
    (∃ hits, index.searchWithControl S request.vector request.topK control = .ok hits) ↔
      request.topK ≤ index.config.efSearch ∧
        (index.metric = .cosine → ¬hasZeroNorm S request.vector) := by
  have hindex := HnswIndex.indexOf_of_build hbuild
  obtain ⟨hcontrol, ⟨htop, hquery, hfinite⟩, hscorable⟩ := Search.exactSearch_ok_iff.mp hexact
  rw [HnswIndex.search_ok_iff hindex, HnswIndex.validateQuery_ok_iff]
  constructor
  · rintro ⟨-, -, hef, -, -, -, hnorm⟩
    exact ⟨hef, hnorm⟩
  · rintro ⟨hef, hnorm⟩
    refine ⟨hcontrol, htop, hef, hquery, hfinite, fun expected hexpected => ?_, hnorm⟩
    rw [hindex.dimension, hindex.records, Option.map_eq_some_iff] at hexpected
    obtain ⟨first, hfirst, rfl⟩ := hexpected
    rw [← hindex.collectionId, hcollection] at hfirst
    exact ((hscorable first (List.mem_of_head? hfirst)).1).symm

/-- Whenever the exact execution of a request succeeds, its automatic execution
succeeds if and only if the index, where it is chosen, admits the request. -/
theorem auto_ok_iff_of_exact_ok
    (hbuilt : ∀ index, hnsw = some index → ∃ collectionId metric indexConfig,
      HnswIndex.build S segments collectionId metric indexConfig = .ok index)
    (hexact : ∃ response, executeQueryWithConfigAndControl S
      { request with preference := .exact } segments hnsw config control = .ok response) :
    (∃ response, executeQueryWithConfigAndControl S { request with preference := .auto } segments
      hnsw config control = .ok response) ↔ IndexAdmits S request segments hnsw config := by
  obtain ⟨hcontrol, hcheck, plan, hplan, hits⟩ := executeQuery_ok_iff.mp hexact
  cases hplan
  rw [executeQuery_ok_iff]
  rcases planQuery_auto request hnsw (visibleRecordCount segments request.collectionId) config with
    ⟨index, plan, hchosen, hstrategy, hplan⟩ | ⟨hnot, plan, hstrategy, hplan⟩
  · obtain ⟨rfl, hpredicate, hlarge⟩ := hchosen
    obtain ⟨collectionId, metric, indexConfig, hbuild⟩ := hbuilt index rfl
    have hcollection : index.collectionId = request.collectionId := by
      by_contra hne
      simp only [checkIndex, hne, ne_eq, not_false_eq_true, if_true] at hcheck
      cases hcheck
    have hsearch := search_ok_iff_of_exact hbuild hcollection
      ((executeExact_ok_iff (show { request with preference := .exact }.predicate = none from
        hpredicate)).mp hits)
    constructor
    · rintro ⟨-, -, other, hother, found, hfound⟩ chosen ⟨⟨⟩, -, -⟩
      cases hplan.symm.trans hother
      rw [hstrategy] at hfound
      obtain ⟨_, ⟨⟩, hfound⟩ := except_bind_ok.mp hfound
      obtain ⟨found, hfound, -⟩ := except_bind_ok.mp hfound
      exact hsearch.mp ⟨found, mapError_ok_iff.mp hfound⟩
    · intro hadmits
      obtain ⟨found, hfound⟩ := hsearch.mpr (hadmits index ⟨rfl, hpredicate, hlarge⟩)
      refine ⟨hcontrol, hcheck, plan, hplan, ?_⟩
      rw [hstrategy]
      exact ⟨_, except_bind_ok.mpr ⟨index, rfl, except_bind_ok.mpr ⟨found, mapError_ok_iff.mpr hfound,
        rfl⟩⟩⟩
  · refine ⟨fun _ index hchosen => absurd hchosen (hnot index), fun _ => ?_⟩
    refine ⟨hcontrol, hcheck, plan, hplan, ?_⟩
    rw [hstrategy]
    exact hits

end Admission

/-! ### A request for more hits than the index collects -/

def sampleCollection : CollectionId := ⟨"a", CollectionId.validate_a⟩

/-- The vector `[1.0]`. -/
def sampleRecord : Record := ⟨.unsigned 0, ⟨[⟨0x3f800000⟩], Vector.finite_one⟩, .empty, 1⟩

def sampleSegment : Segment := ⟨1, sampleCollection, 1, 1, [sampleRecord], []⟩

def sampleRequest (topK : ℕ) : QueryRequest :=
  ⟨sampleCollection, [⟨0x3f800000⟩], .l2, topK, none, .auto⟩

theorem eq_sampleRecord {record : Record}
    (h : record ∈ visibleRecords [sampleSegment] sampleCollection) : record = sampleRecord := by
  obtain ⟨segment, hsegment, -, hrecord⟩ := mem_records_of_visible h
  rw [List.mem_singleton.mp hsegment] at hrecord
  exact List.mem_singleton.mp hrecord

theorem sampleIndex_exists :
    ∃ index, HnswIndex.build ℝ [sampleSegment] sampleCollection .l2 ⟨1, 1, 1⟩ = .ok index := by
  have hcomparable : ∀ record ∈ visibleRecords [sampleSegment] sampleCollection,
      HnswIndex.Comparable ℝ .l2 1 record.vector.values := by
    intro record hrecord
    rw [eq_sampleRecord hrecord]
    exact ⟨rfl, nofun⟩
  exact HnswIndex.build_exists rfl hcomparable

theorem sampleExact_ok {index : HnswIndex} (config : PlannerConfig) {topK : ℕ} (htop : 0 < topK)
    (hindex : HnswIndex.build ℝ [sampleSegment] sampleCollection .l2 ⟨1, 1, 1⟩ = .ok index) :
    ∃ response, executeQueryWithConfigAndControl ℝ
      { sampleRequest topK with preference := .exact } [sampleSegment] (some index) config
      .unbounded = .ok response := by
  have hexact : ∃ hits, Search.exactSearchSegmentsWithControl ℝ [sampleSegment] sampleCollection
      [⟨0x3f800000⟩] .l2 topK .unbounded = .ok hits := by
    refine Search.exactSearch_ok_iff.mpr ⟨rfl, ⟨htop, List.cons_ne_nil _ _, rfl⟩, ?_⟩
    intro record hrecord
    rw [eq_sampleRecord hrecord]
    exact ⟨rfl, nofun⟩
  have hhits : ∃ hits, executeExactControlled ℝ { sampleRequest topK with preference := .exact }
      [sampleSegment] .unbounded = .ok hits := (executeExact_ok_iff rfl).mpr hexact
  refine executeQuery_ok_iff.mpr ⟨rfl, ?_, _, rfl, hhits⟩
  have hcollection := (HnswIndex.indexOf_of_build hindex).collectionId
  simp only [checkIndex, hcollection, sampleRequest, ne_eq, not_true_eq_false, if_false]

theorem auto_ok_sample : ∃ index,
    HnswIndex.build ℝ [sampleSegment] sampleCollection .l2 ⟨1, 1, 1⟩ = .ok index ∧
      ((∃ response, executeQueryWithConfigAndControl ℝ
        { sampleRequest 1 with preference := .auto } [sampleSegment] (some index) ⟨1⟩ .unbounded =
          .ok response) ↔ IndexAdmits ℝ (sampleRequest 1) [sampleSegment] (some index) ⟨1⟩) := by
  obtain ⟨index, hindex⟩ := sampleIndex_exists
  refine ⟨index, hindex, auto_ok_iff_of_exact_ok (fun other hother => ?_)
    (sampleExact_ok ⟨1⟩ Nat.one_pos hindex)⟩
  cases hother
  exact ⟨_, _, _, hindex⟩

/-- One record, an index that collects one candidate and a request for two hits. -/
theorem not_auto_of_exact_two_hits : ∃ index,
    HnswIndex.build ℝ [sampleSegment] sampleCollection .l2 ⟨1, 1, 1⟩ = .ok index ∧
      (∃ response, executeQueryWithConfigAndControl ℝ
        { sampleRequest 2 with preference := .exact } [sampleSegment] (some index) ⟨1⟩ .unbounded =
          .ok response) ∧
      executeQueryWithConfigAndControl ℝ { sampleRequest 2 with preference := .auto }
        [sampleSegment] (some index) ⟨1⟩ .unbounded = .error (.hnsw (.efSearchTooSmall 1 2)) := by
  obtain ⟨index, hindex⟩ := sampleIndex_exists
  refine ⟨index, hindex, sampleExact_ok ⟨1⟩ Nat.two_pos hindex, ?_⟩
  have hspec := HnswIndex.indexOf_of_build hindex
  have hcheck : checkIndex { sampleRequest 2 with preference := .auto } (some index) = .ok () := by
    simp only [checkIndex, hspec.collectionId, sampleRequest, ne_eq, not_true_eq_false, if_false]
  have hcount : visibleRecordCount [sampleSegment] sampleCollection = 1 := by decide
  have hsearch : index.searchWithControl ℝ [⟨0x3f800000⟩] 2 .unbounded =
      .error (.efSearchTooSmall 1 2) := by
    simp only [HnswIndex.searchWithControl, HnswIndex.validateQuery, hspec.sameConfig]
    rfl
  unfold executeQueryWithConfigAndControl
  rw [hcheck]
  simp only [planQuery, sampleRequest, hcount, executePlan, expectPresent]
  simp [hsearch, Except.mapError, except_ok_bind]
  rfl

end CostPlanner

end Ketebe
