import Ketebe.Lib.BoundedSort
import Ketebe.Score
import Ketebe.Segment

/-!
Exact search: the visible records of a list of segments are scored one by one
and the best hits kept. The visible records are the latest versions that are
not tombstones.
-/
namespace Ketebe

open Lib.ByteCodec Lib.LatestVersion

inductive QueryControlError where
  | cancelled
  | deadlineExceeded
  deriving DecidableEq, Repr

/-- The state of the control during one query: cancelled, or past its deadline. -/
structure QueryControl where
  cancelled : Bool
  expired : Bool

namespace QueryControl

def unbounded : QueryControl := ⟨false, false⟩

def check (control : QueryControl) : Except QueryControlError Unit :=
  if control.cancelled then .error .cancelled
  else if control.expired then .error .deadlineExceeded
  else .ok ()

theorem check_unbounded : unbounded.check = .ok () := rfl

end QueryControl

inductive SearchError where
  | segment (error : SegmentError)
  | invalidTopK
  | emptyQueryVector
  | nonFiniteQueryValue (index : ℕ)
  | dimensionMismatch (expected actual : ℕ)
  | zeroNormVector
  | control (error : QueryControlError)
  | predicate (error : PredicateError)
  deriving DecidableEq, Repr

structure SearchHit (S : Type) where
  record : Record
  score : S

/-- The position behind which a page of hits starts. -/
structure SearchAfter (S : Type) where
  score : S
  recordId : RecordId

/-- The versions that the segments of a collection hold. -/
def versionsIn (segments : List Segment) (collectionId : CollectionId) : List RecordVersion :=
  (segments.filter fun segment => segment.collectionId = collectionId).flatMap Segment.versions

/-- The latest version of every record, without the deleted ones. -/
def foldVisibleRecords (segments : List Segment) (collectionId : CollectionId) :
    Std.ExtTreeMap RecordId Record compare :=
  (fold (versionsIn segments collectionId)).filterMap fun _ version => version.2

/-- The visible records in the order of their ids. -/
def visibleRecords (segments : List Segment) (collectionId : CollectionId) : List Record :=
  (foldVisibleRecords segments collectionId).toList.map Prod.snd

/-! ### Visible records -/

section Visible

variable {segments : List Segment} {collectionId : CollectionId}

theorem mem_versionsIn {v : RecordVersion} : v ∈ versionsIn segments collectionId ↔
    ∃ segment ∈ segments, segment.collectionId = collectionId ∧ v ∈ segment.versions := by
  simp only [versionsIn, List.mem_flatMap, List.mem_filter, decide_eq_true_eq, and_assoc]

theorem getElem?_foldVisibleRecords (key : RecordId) :
    (foldVisibleRecords segments collectionId)[key]? =
      (fold (versionsIn segments collectionId))[key]?.bind Prod.snd :=
  Std.ExtTreeMap.getElem?_filterMap'

/-- A version that carries a record carries its id and its sequence number. -/
theorem version_eq_of_value {segment : Segment} {v : RecordVersion} (hv : v ∈ segment.versions)
    {record : Record} (h : v.value = some record) : v = record.version := by
  rcases List.mem_append.mp hv with hrecord | htombstone
  · obtain ⟨other, -, rfl⟩ := List.mem_map.mp hrecord
    rw [Option.some.inj h]
  · obtain ⟨tombstone, -, rfl⟩ := List.mem_map.mp htombstone
    cases h

theorem latest_of_visible {key : RecordId} {record : Record}
    (h : (foldVisibleRecords segments collectionId)[key]? = some record) :
    record.id = key ∧ Latest (versionsIn segments collectionId) record.version := by
  rw [getElem?_foldVisibleRecords] at h
  obtain ⟨⟨sequence, value⟩, hentry, hvalue⟩ := Option.bind_eq_some_iff.mp h
  have hlatest : Latest (versionsIn segments collectionId) ⟨key, sequence, value⟩ :=
    latest_of_fold hentry
  obtain ⟨segment, -, -, hmem⟩ := mem_versionsIn.mp hlatest.1
  have hversion := version_eq_of_value hmem hvalue
  rw [hversion] at hlatest
  exact ⟨(congrArg Version.key hversion).symm, hlatest⟩

theorem mem_visibleRecords {record : Record} : record ∈ visibleRecords segments collectionId ↔
    (foldVisibleRecords segments collectionId)[record.id]? = some record := by
  simp only [visibleRecords, List.mem_map, Prod.exists, exists_eq_right,
    Std.ExtTreeMap.mem_toList_iff_getElem?_eq_some]
  constructor
  · rintro ⟨key, h⟩
    rwa [(latest_of_visible h).1]
  · exact fun h => ⟨record.id, h⟩

theorem mem_records_of_visible {record : Record}
    (h : record ∈ visibleRecords segments collectionId) :
    ∃ segment ∈ segments, segment.collectionId = collectionId ∧ record ∈ segment.records := by
  obtain ⟨-, hmem, -⟩ := latest_of_visible (mem_visibleRecords.mp h)
  obtain ⟨segment, hsegment, hcollection, hversion⟩ := mem_versionsIn.mp hmem
  refine ⟨segment, hsegment, hcollection, ?_⟩
  rcases List.mem_append.mp hversion with hrecord | htombstone
  · obtain ⟨other, hother, heq⟩ := List.mem_map.mp hrecord
    rwa [← Option.some.inj (congrArg Version.value heq)]
  · obtain ⟨tombstone, -, heq⟩ := List.mem_map.mp htombstone
    cases congrArg Version.value heq

theorem sorted_visibleRecords : (visibleRecords segments collectionId).Pairwise
    fun left right => left.id < right.id := by
  rw [visibleRecords, List.pairwise_map]
  refine (Std.ExtTreeMap.ordered_keys_toList).imp_of_mem fun {a b} ha hb hlt => ?_
  rw [Std.ExtTreeMap.mem_toList_iff_getElem?_eq_some] at ha hb
  rwa [(latest_of_visible ha).1, (latest_of_visible hb).1, ← compare_lt_iff_lt]

/-- A segment without tombstones shows its records. -/
theorem visibleRecords_of_segment {segment : Segment}
    (hsorted : segment.records.Pairwise fun left right => left.id < right.id)
    (htombstones : segment.tombstones = []) :
    visibleRecords [segment] segment.collectionId = segment.records := by
  have hversions : versionsIn [segment] segment.collectionId =
      segment.records.map Record.version := by
    simp [versionsIn, Segment.versions, htombstones]
  have hinj {left right : Record} (hleft : left ∈ segment.records)
      (hright : right ∈ segment.records) (heq : left.id = right.id) : left = right :=
    List.inj_on_of_nodup_map (List.pairwise_map.mpr (hsorted.imp ne_of_lt)) hleft hright heq
  have hkeys {left right : RecordVersion} (hleft : left ∈ segment.records.map Record.version)
      (hright : right ∈ segment.records.map Record.version) (heq : left.key = right.key) :
      left = right := by
    obtain ⟨first, hfirst, rfl⟩ := List.mem_map.mp hleft
    obtain ⟨second, hsecond, rfl⟩ := List.mem_map.mp hright
    rw [hinj hfirst hsecond heq]
  have hmem (record : Record) : record ∈ visibleRecords [segment] segment.collectionId ↔
      record ∈ segment.records := by
    constructor
    · intro hrecord
      obtain ⟨found, hfound, -, hrecord⟩ := mem_records_of_visible hrecord
      rwa [List.mem_singleton.mp hfound] at hrecord
    · intro hrecord
      have hversion : record.version ∈ segment.records.map Record.version :=
        List.mem_map_of_mem hrecord
      have hlatest : Latest (versionsIn [segment] segment.collectionId) record.version := by
        rw [hversions]
        refine ⟨hversion, fun other hother heq => ?_⟩
        rw [hkeys hother hversion heq]
      have hfold := fold_of_latest (by
        rw [hversions]
        exact fun left hleft right hright heq _ => hkeys hleft hright heq) hlatest
      rw [mem_visibleRecords, getElem?_foldVisibleRecords]
      exact congrArg (fun found => Option.bind found Prod.snd) hfold
  exact Lib.BoundedSort.eq_of_pairwise_of_mem sorted_visibleRecords hsorted
    (fun _ _ => lt_asymm) hmem

end Visible

namespace Search

variable {S : Type} [ScoreArith S]

def validateQuery (query : List F32) (topK : ℕ) : Except SearchError Unit :=
  if topK = 0 then .error .invalidTopK
  else if query = [] then .error .emptyQueryVector
  else match firstNonFinite 0 query with
    | some index => .error (.nonFiniteQueryValue index)
    | none => .ok ()

def score (query : List F32) (vector : Vector) (metric : DistanceMetric) : Except SearchError S :=
  match metric with
  | .dot => .ok (dot query vector.values)
  | .l2 => .ok (l2 query vector.values)
  | .cosine =>
      match cosine query vector.values with
      | some value => .ok value
      | none => .error .zeroNormVector

def compareHits (metric : DistanceMetric) (left right : SearchHit S) : Ordering :=
  (compareScoreAndId metric left.score left.record.id right.score right.record.id).then
    (compare left.record.sequenceNumber right.record.sequenceNumber)

/-- Adds a hit, sorts and drops the last one if there are too many. -/
def keepBest (metric : DistanceMetric) (topK : ℕ) (hits : List (SearchHit S)) (hit : SearchHit S) :
    List (SearchHit S) :=
  let sorted := (hits ++ [hit]).mergeSort fun left right => (compareHits metric left right).isLE
  if topK < sorted.length then sorted.dropLast else sorted

def isAfter (metric : DistanceMetric) (after : Option (SearchAfter S)) (hit : SearchHit S) : Bool :=
  after.all fun after =>
    (compareScoreAndId metric hit.score hit.record.id after.score after.recordId).isGT

def checkControl (control : QueryControl) : Except SearchError Unit :=
  control.check.mapError .control

/-- One iteration of the scan. -/
def visit (query : List F32) (metric : DistanceMetric) (topK expected : ℕ)
    (predicate : Option Predicate) (after : Option (SearchAfter S)) (hits : List (SearchHit S))
    (record : Record) : Except SearchError (List (SearchHit S)) := do
  if record.vector.length ≠ expected then
    throw (.dimensionMismatch expected record.vector.length)
  else do
    let selected ← match predicate with
      | some predicate => (predicate.evaluate record.metadata).mapError SearchError.predicate
      | none => pure true
    if selected then do
      let value ← score query record.vector metric
      let hit : SearchHit S := ⟨record, value⟩
      pure (if isAfter metric after hit then keepBest metric topK hits hit else hits)
    else pure hits

/-- The loops check the control at every so many elements. -/
def checkEvery (period index : ℕ) (control : QueryControl) : Except QueryControlError Unit :=
  if index % period = 0 then control.check else .ok ()

def scan (control : QueryControl) (query : List F32) (metric : DistanceMetric) (topK expected : ℕ)
    (predicate : Option Predicate) (after : Option (SearchAfter S)) :
    ℕ → List (SearchHit S) → List Record → Except SearchError (List (SearchHit S))
  | _, hits, [] => pure hits
  | index, hits, record :: rest => do
    (checkEvery 256 index control).mapError SearchError.control
    let found ← visit query metric topK expected predicate after hits record
    scan control query metric topK expected predicate after (index + 1) found rest

/-- The search over the visible records; the first one sets the dimension. -/
def searchVisible (control : QueryControl) (query : List F32) (metric : DistanceMetric) (topK : ℕ)
    (predicate : Option Predicate) (after : Option (SearchAfter S)) :
    List Record → Except SearchError (List (SearchHit S))
  | [] => pure []
  | first :: rest =>
      let expected := first.vector.length
      if query.length ≠ expected then throw (.dimensionMismatch expected query.length)
      else if metric = .cosine ∧ hasZeroNorm S query then throw .zeroNormVector
      else do
        let hits ← scan control query metric topK expected predicate after 0 [] (first :: rest)
        checkControl control
        pure hits

def exactSearchSegmentsAfterWithControl (segments : List Segment) (collectionId : CollectionId)
    (query : List F32) (metric : DistanceMetric) (topK : ℕ) (predicate : Option Predicate)
    (after : Option (SearchAfter S)) (control : QueryControl) :
    Except SearchError (List (SearchHit S)) := do
  checkControl control
  validateQuery query topK
  checkControl control
  searchVisible control query metric topK predicate after (visibleRecords segments collectionId)

def exactSearchSegmentsWithControl (S : Type) [ScoreArith S] (segments : List Segment)
    (collectionId : CollectionId) (query : List F32) (metric : DistanceMetric) (topK : ℕ)
    (control : QueryControl) : Except SearchError (List (SearchHit S)) :=
  exactSearchSegmentsAfterWithControl segments collectionId query metric topK none none control

/-! ### When a search succeeds -/

/-- Every one of these vectors can be scored against the query. -/
def Scorable (S : Type) [ScoreArith S] (query : List F32) (metric : DistanceMetric)
    (records : List Record) : Prop :=
  ∀ record ∈ records, record.vector.length = query.length ∧
    (metric = .cosine → ¬hasZeroNorm S query ∧ ¬hasZeroNorm S record.vector.values)

theorem checkControl_ok_iff {control : QueryControl} :
    checkControl control = .ok () ↔ control.check = .ok () := by
  unfold checkControl
  cases control.check with
  | ok => exact ⟨fun _ => rfl, fun _ => rfl⟩
  | error error => simp [Except.mapError]

theorem validateQuery_ok_iff {query : List F32} {topK : ℕ} :
    validateQuery query topK = .ok () ↔
      0 < topK ∧ query ≠ [] ∧ firstNonFinite 0 query = none := by
  unfold validateQuery
  by_cases htop : topK = 0
  · simp [htop]
  · by_cases hquery : query = []
    · simp [htop, hquery]
    · rw [if_neg htop, if_neg hquery]
      cases hfinite : firstNonFinite 0 query with
      | none => simp [hquery, Nat.pos_of_ne_zero htop]
      | some index => simp

theorem score_ok_iff {query : List F32} {vector : Vector} {metric : DistanceMetric} :
    (∃ value : S, score query vector metric = .ok value) ↔
      (metric = .cosine → ¬hasZeroNorm S query ∧ ¬hasZeroNorm S vector.values) := by
  cases metric with
  | dot => simp [score]
  | l2 => simp [score]
  | cosine =>
    have hnone : (cosine query vector.values : Option S) = none ↔ _ := cosine_eq_none_iff
    rw [← not_or, ← hnone]
    cases hcosine : (cosine query vector.values : Option S) with
    | none => simp [score, hcosine]
    | some value => simp [score, hcosine]

theorem visit_ok_iff {query : List F32} {metric : DistanceMetric} (topK : ℕ)
    (after : Option (SearchAfter S)) (hits : List (SearchHit S)) {record : Record} :
    (∃ next, visit query metric topK query.length none after hits record = .ok next) ↔
      Scorable S query metric [record] := by
  rw [Scorable, List.forall_mem_singleton]
  by_cases hlen : record.vector.length = query.length
  · simp only [visit, hlen, ne_eq, not_true_eq_false, if_false, true_and, ← score_ok_iff]
    cases hscore : (score query record.vector metric : Except SearchError S) with
    | error error => exact ⟨by rintro ⟨_, ⟨⟩⟩, by rintro ⟨_, ⟨⟩⟩⟩
    | ok value => exact ⟨fun _ => ⟨value, rfl⟩, fun _ => ⟨_, rfl⟩⟩
  · simp only [visit, hlen, ne_eq, not_false_eq_true, if_true, false_and, iff_false]
    rintro ⟨_, ⟨⟩⟩

theorem checkEvery_ok {control : QueryControl} (h : control.check = .ok ()) (period index : ℕ) :
    checkEvery period index control = .ok () := by
  unfold checkEvery
  split
  · exact h
  · rfl

theorem scan_ok_iff {control : QueryControl} (hcontrol : control.check = .ok ())
    {query : List F32} {metric : DistanceMetric} (topK index : ℕ) (after : Option (SearchAfter S))
    (hits : List (SearchHit S)) {records : List Record} :
    (∃ found, scan control query metric topK query.length none after index hits records =
      .ok found) ↔ Scorable S query metric records := by
  induction records generalizing index hits with
  | nil => exact ⟨fun _ => nofun, fun _ => ⟨hits, rfl⟩⟩
  | cons record rest ih =>
    have hcontrol' : (checkEvery 256 index control).mapError SearchError.control = .ok () := by
      rw [checkEvery_ok hcontrol]
      rfl
    have hsplit : Scorable S query metric (record :: rest) ↔
        Scorable S query metric [record] ∧ Scorable S query metric rest := by
      simp only [Scorable, List.forall_mem_cons, List.not_mem_nil, false_imp_iff, implies_true,
        and_true]
    rw [hsplit, ← visit_ok_iff topK after hits]
    constructor
    · rintro ⟨found, h⟩
      obtain ⟨-, -, h⟩ := except_bind_ok.mp h
      obtain ⟨next, hnext, h⟩ := except_bind_ok.mp h
      exact ⟨⟨next, hnext⟩, (ih ..).mp ⟨found, h⟩⟩
    · rintro ⟨⟨next, hnext⟩, hrest⟩
      obtain ⟨found, hfound⟩ := (ih (index + 1) next).mpr hrest
      exact ⟨found, except_bind_ok.mpr ⟨(), hcontrol', except_bind_ok.mpr ⟨next, hnext, hfound⟩⟩⟩

theorem searchVisible_ok_iff {control : QueryControl} (hcontrol : control.check = .ok ())
    {query : List F32} {metric : DistanceMetric} (topK : ℕ) (after : Option (SearchAfter S))
    {visible : List Record} :
    (∃ hits, searchVisible control query metric topK none after visible = .ok hits) ↔
      Scorable S query metric visible := by
  have hcheck := checkControl_ok_iff.mpr hcontrol
  cases visible with
  | nil => exact ⟨fun _ => nofun, fun _ => ⟨[], rfl⟩⟩
  | cons first rest =>
    rw [searchVisible]
    by_cases hlen : query.length = first.vector.length
    · by_cases hnorm : metric = .cosine ∧ hasZeroNorm S query
      · rw [if_neg (not_not.mpr hlen), if_pos hnorm]
        constructor
        · rintro ⟨_, ⟨⟩⟩
        · intro h
          exact absurd hnorm.2 ((h first (List.mem_cons_self ..)).2 hnorm.1).1
      · rw [if_neg (not_not.mpr hlen), if_neg hnorm,
          ← scan_ok_iff hcontrol topK 0 after [], hlen]
        constructor
        · rintro ⟨hits, h⟩
          obtain ⟨found, hfound, -⟩ := except_bind_ok.mp h
          exact ⟨found, hfound⟩
        · rintro ⟨found, hfound⟩
          exact ⟨found, except_bind_ok.mpr ⟨found, hfound, by rw [hcheck]; rfl⟩⟩
    · rw [if_pos hlen]
      constructor
      · rintro ⟨_, ⟨⟩⟩
      · intro h
        exact absurd (h first (List.mem_cons_self ..)).1.symm hlen

/-- An exact search without predicate and position succeeds when the request is
valid and every visible record can be scored. -/
theorem exactSearch_ok_iff {segments : List Segment} {collectionId : CollectionId}
    {query : List F32} {metric : DistanceMetric} {topK : ℕ} {control : QueryControl} :
    (∃ hits, exactSearchSegmentsWithControl S segments collectionId query metric topK control =
      .ok hits) ↔ control.check = .ok () ∧ (0 < topK ∧ query ≠ [] ∧ firstNonFinite 0 query = none) ∧
        Scorable S query metric (visibleRecords segments collectionId) := by
  rw [← validateQuery_ok_iff]
  constructor
  · rintro ⟨hits, h⟩
    obtain ⟨⟨⟩, hcheck, h⟩ := except_bind_ok.mp h
    obtain ⟨⟨⟩, hvalid, h⟩ := except_bind_ok.mp h
    obtain ⟨⟨⟩, -, h⟩ := except_bind_ok.mp h
    have hcontrol := checkControl_ok_iff.mp hcheck
    exact ⟨hcontrol, hvalid, (searchVisible_ok_iff hcontrol topK none).mp ⟨hits, h⟩⟩
  · rintro ⟨hcontrol, hvalid, hscorable⟩
    obtain ⟨hits, hhits⟩ :=
      (searchVisible_ok_iff hcontrol topK none).mpr hscorable
    have hcheck := checkControl_ok_iff.mpr hcontrol
    exact ⟨hits, except_bind_ok.mpr ⟨(), hcheck, except_bind_ok.mpr ⟨(), hvalid,
      except_bind_ok.mpr ⟨(), hcheck, hhits⟩⟩⟩⟩

end Search

end Ketebe
