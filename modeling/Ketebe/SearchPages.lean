import Ketebe.Search

/-!
An exact search keeps the best hits of the records that the predicate selects.
Hits of one search have distinct ids, so the order of the hits is strict and the
kept ones are a prefix of one sorted list. Pages read behind one another are
then that whole list.
-/
namespace Ketebe

open Lib.ByteCodec Lib.BoundedSort

namespace Search

variable {S : Type} [ScoreArith S]

/-! ### The order of hits -/

def hitLe (metric : DistanceMetric) (left right : SearchHit S) : Bool :=
  (compareHits metric left right).isLE

/-- The order of hits by score and id, which the positions of pages use. -/
def comparePosition (metric : DistanceMetric) (left right : SearchHit S) : Ordering :=
  compareScoreAndId metric left.score left.record.id right.score right.record.id

def Before (metric : DistanceMetric) (left right : SearchHit S) : Prop :=
  comparePosition metric left right = .lt

instance (metric : DistanceMetric) :
    Std.TransCmp (comparePosition metric : SearchHit S → SearchHit S → Ordering) := by
  cases metric with
  | l2 =>
    exact inferInstanceAs (Std.TransCmp (compareLex (compareOn SearchHit.score)
      (compareOn fun hit : SearchHit S => hit.record.id)))
  | cosine | dot =>
    exact inferInstanceAs (Std.TransCmp (compareLex
      (fun left right : SearchHit S => compareOn SearchHit.score right left)
      (compareOn fun hit : SearchHit S => hit.record.id)))

instance (metric : DistanceMetric) :
    Std.TransCmp (compareHits metric : SearchHit S → SearchHit S → Ordering) :=
  inferInstanceAs (Std.TransCmp (compareLex (comparePosition metric)
    (compareOn fun hit : SearchHit S => hit.record.sequenceNumber)))

theorem before_or_before {metric : DistanceMetric} {left right : SearchHit S}
    (h : left.record.id ≠ right.record.id) :
    Before metric left right ∨ Before metric right left := by
  rcases hcmp : comparePosition metric left right with _ | _ | _
  · exact .inl hcmp
  · have hid := (Ordering.then_eq_eq.mp hcmp).2
    exact absurd (compare_eq_iff_eq.mp hid) h
  · exact .inr (Std.OrientedCmp.gt_iff_lt.mp hcmp)

theorem before_of_hitLe {metric : DistanceMetric} {left right : SearchHit S}
    (h : left.record.id ≠ right.record.id) (hle : hitLe metric left right) :
    Before metric left right := by
  rcases before_or_before h with hbefore | hbefore
  · exact hbefore
  · have hgt : comparePosition metric left right = .gt := Std.OrientedCmp.gt_iff_lt.mpr hbefore
    have hcompare : compareHits metric left right = .gt := Ordering.then_eq_gt.mpr (.inl hgt)
    rw [hitLe, hcompare] at hle
    cases hle

theorem before_asymm {metric : DistanceMetric} {left right : SearchHit S}
    (h : Before metric left right) : ¬Before metric right left := by
  intro hback
  have hgt : comparePosition metric left right = .gt := Std.OrientedCmp.gt_iff_lt.mpr hback
  rw [Before, hgt] at h
  cases h

theorem isAfter_iff_before {metric : DistanceMetric} {last hit : SearchHit S} :
    isAfter metric (some ⟨last.score, last.record.id⟩) hit ↔ Before metric last hit := by
  have hswap : Before metric last hit ↔ comparePosition metric hit last = .gt :=
    Std.OrientedCmp.gt_iff_lt.symm
  rw [hswap]
  show (comparePosition metric hit last).isGT ↔ _
  cases comparePosition metric hit last <;> simp [Ordering.isGT]

/-- The hits come from distinct records. -/
def DistinctIds (hits : List (SearchHit S)) : Prop :=
  (hits.map fun hit => hit.record.id).Nodup

theorem DistinctIds.orders {hits : List (SearchHit S)} (h : DistinctIds hits)
    (metric : DistanceMetric) : Orders (hitLe metric) hits := by
  apply orders_isLE
  intro a ha b hb hab hba
  by_cases hid : a.record.id = b.record.id
  · exact List.inj_on_of_nodup_map h ha hb hid
  · exact absurd (before_of_hitLe (Ne.symm hid) hba) (before_asymm (before_of_hitLe hid hab))

theorem DistinctIds.orders_comparePosition {hits : List (SearchHit S)} (h : DistinctIds hits)
    (metric : DistanceMetric) : Orders (fun a b => (comparePosition metric a b).isLE) hits := by
  apply orders_isLE
  intro a ha b hb hab hba
  by_cases hid : a.record.id = b.record.id
  · exact List.inj_on_of_nodup_map h ha hb hid
  · exfalso
    rcases before_or_before hid with hbefore | hbefore
    · rw [Std.OrientedCmp.gt_iff_lt.mpr hbefore] at hba
      cases hba
    · rw [Std.OrientedCmp.gt_iff_lt.mpr hbefore] at hab
      cases hab

theorem DistinctIds.pairwise_before {hits : List (SearchHit S)} (h : DistinctIds hits)
    (metric : DistanceMetric) : (hits.mergeSort (hitLe metric)).Pairwise (Before metric) := by
  have hdistinct : DistinctIds (hits.mergeSort (hitLe metric)) :=
    ((List.mergeSort_perm hits _).map _).nodup_iff.mpr h
  have hsorted := (h.orders metric).pairwise_mergeSort hits
  exact (hsorted.and (List.pairwise_map.mp hdistinct)).imp fun hboth =>
    before_of_hitLe hboth.2 hboth.1

/-- Distinct ids already decide the order, without the sequence numbers. -/
theorem DistinctIds.mergeSort_comparePosition {hits : List (SearchHit S)} (h : DistinctIds hits)
    (metric : DistanceMetric) :
    (hits.mergeSort fun a b => (comparePosition metric a b).isLE) =
      hits.mergeSort (hitLe metric) := by
  apply (h.orders_comparePosition metric).mergeSort_eq
  · refine (h.pairwise_before metric).imp fun {a b} hbefore => ?_
    rw [show comparePosition metric a b = .lt from hbefore]
    rfl
  · exact (List.mergeSort_perm hits _).symm

/-! ### One search -/

/-- A search without a predicate selects every record. -/
def selects (predicate : Option Predicate) (record : Record) : Except SearchError Bool :=
  match predicate with
  | some predicate => (predicate.evaluate record.metadata).mapError SearchError.predicate
  | none => pure true

theorem selects_ok_true_iff {predicate : Option Predicate} {record : Record} :
    selects predicate record = .ok true ↔
      ∀ p, predicate = some p → p.evaluate record.metadata = .ok true := by
  cases predicate with
  | none => exact ⟨fun _ => nofun, fun _ => rfl⟩
  | some p =>
    show (p.evaluate record.metadata).mapError SearchError.predicate = .ok true ↔ _
    rw [mapError_ok_iff]
    exact ⟨fun h q hq => by cases hq; exact h, fun h => h p rfl⟩

/-- The hit of a record that the predicate selects. -/
def scoreRecord (query : List F32) (metric : DistanceMetric) (expected : ℕ)
    (predicate : Option Predicate) (record : Record) : Except SearchError (Option (SearchHit S)) := do
  if record.vector.length ≠ expected then
    throw (.dimensionMismatch expected record.vector.length)
  else do
    let selected ← selects predicate record
    if selected then do
      let value ← score query record.vector metric
      pure (some ⟨record, value⟩)
    else pure none

/-- The hits of all records that the predicate selects, in the order of the records. -/
def selectedHits (query : List F32) (metric : DistanceMetric) (expected : ℕ)
    (predicate : Option Predicate) : List Record → Except SearchError (List (SearchHit S))
  | [] => pure []
  | record :: rest => do
    let hit ← scoreRecord query metric expected predicate record
    let hits ← selectedHits query metric expected predicate rest
    pure (hit.toList ++ hits)

/-- All hits of a search over these records, without a limit. -/
def visibleHits (query : List F32) (metric : DistanceMetric) (predicate : Option Predicate) :
    List Record → Except SearchError (List (SearchHit S))
  | [] => pure []
  | first :: rest =>
      let expected := first.vector.length
      if query.length ≠ expected then throw (.dimensionMismatch expected query.length)
      else if metric = .cosine ∧ hasZeroNorm S query then throw .zeroNormVector
      else selectedHits query metric expected predicate (first :: rest)

section Scan

variable {query : List F32} {metric : DistanceMetric} {expected : ℕ} {predicate : Option Predicate}

def keepAfter (metric : DistanceMetric) (topK : ℕ) (after : Option (SearchAfter S))
    (hits : List (SearchHit S)) (hit : SearchHit S) : List (SearchHit S) :=
  if isAfter metric after hit then keepBest metric topK hits hit else hits

theorem visit_eq (topK : ℕ) (after : Option (SearchAfter S)) (hits : List (SearchHit S))
    (record : Record) :
    visit query metric topK expected predicate after hits record =
      (scoreRecord query metric expected predicate record).map fun hit =>
        hit.toList.foldl (keepAfter metric topK after) hits := by
  have hvisit : visit query metric topK expected predicate after hits record =
      if record.vector.length ≠ expected then
        throw (.dimensionMismatch expected record.vector.length)
      else selects predicate record >>= fun selected =>
        if selected then (score query record.vector metric : Except SearchError S) >>= fun value =>
          pure (keepAfter metric topK after hits ⟨record, value⟩)
        else pure hits := by
    cases predicate <;> rfl
  rw [hvisit, scoreRecord]
  by_cases hlen : record.vector.length ≠ expected
  · rw [if_pos hlen, if_pos hlen]
    rfl
  · rw [if_neg hlen, if_neg hlen]
    rcases selects predicate record with error | _ | _
    · rfl
    · rfl
    · simp only [except_ok_bind, if_true]
      cases (score query record.vector metric : Except SearchError S) <;> rfl

theorem scan_eq {control : QueryControl} (hcontrol : control.check = .ok ()) (topK index : ℕ)
    (after : Option (SearchAfter S)) (hits : List (SearchHit S)) (records : List Record) :
    scan control query metric topK expected predicate after index hits records =
      (selectedHits query metric expected predicate records).map fun found =>
        found.foldl (keepAfter metric topK after) hits := by
  induction records generalizing index hits with
  | nil => rfl
  | cons record rest ih =>
    rw [scan, selectedHits, checkEvery_ok hcontrol, visit_eq]
    cases (scoreRecord query metric expected predicate record :
      Except SearchError (Option (SearchHit S))) with
    | error error => rfl
    | ok hit =>
      show scan control query metric topK expected predicate after (index + 1) _ rest = _
      rw [ih]
      cases (selectedHits query metric expected predicate rest :
        Except SearchError (List (SearchHit S))) with
      | error error => rfl
      | ok found => exact congrArg Except.ok List.foldl_append.symm

/-- What a search keeps is the beginning of the sorted list of hits behind its position. -/
theorem foldl_keepAfter {hits : List (SearchHit S)} (h : DistinctIds hits) (topK : ℕ)
    (after : Option (SearchAfter S)) :
    hits.foldl (keepAfter metric topK after) [] =
      ((hits.mergeSort (hitLe metric)).filter (isAfter metric after)).take topK := by
  have horders := h.orders metric
  have hfold : hits.foldl (keepAfter metric topK after) [] =
      (hits.filter (isAfter metric after)).foldl (keepInsert (hitLe metric) topK) [] := by
    rw [List.foldl_filter]
    rfl
  rw [hfold, (horders.mono (List.filter_subset_self _)).foldl_keepInsert,
    horders.mergeSort_filter]

/-! ### The selected hits -/

theorem scoreRecord_ok_iff {record : Record} {hit : SearchHit S} :
    scoreRecord query metric expected predicate record = .ok (some hit) ↔
      record.vector.length = expected ∧ selects predicate record = .ok true ∧
        score query record.vector metric = .ok hit.score ∧ hit.record = record := by
  unfold scoreRecord
  by_cases hlen : record.vector.length ≠ expected
  · rw [if_pos hlen]
    exact ⟨nofun, fun h => absurd h.1 hlen⟩
  · rw [if_neg hlen]
    rcases selects predicate record with error | _ | _
    · exact ⟨nofun, fun h => nomatch h.2.1⟩
    · exact ⟨nofun, fun h => nomatch h.2.1⟩
    · simp only [except_ok_bind, if_true, not_not.mp hlen, true_and]
      rcases (score query record.vector metric : Except SearchError S) with error | value
      · exact ⟨nofun, fun h => nomatch h.1⟩
      · constructor
        · intro h
          cases h
          exact ⟨rfl, rfl⟩
        · rintro ⟨hvalue, hrecord⟩
          cases hvalue
          cases hrecord
          rfl

theorem scoreRecord_exists_iff {record : Record} :
    (∃ hit : Option (SearchHit S), scoreRecord query metric expected predicate record = .ok hit) ↔
      record.vector.length = expected ∧ (selects predicate record = .ok false ∨
        selects predicate record = .ok true ∧
          ∃ value : S, score query record.vector metric = .ok value) := by
  unfold scoreRecord
  by_cases hlen : record.vector.length ≠ expected
  · rw [if_pos hlen]
    exact ⟨nofun, fun h => absurd h.1 hlen⟩
  · rw [if_neg hlen]
    rcases selects predicate record with error | _ | _
    · exact ⟨nofun, fun h => h.2.elim nofun nofun⟩
    · exact ⟨fun _ => ⟨not_not.mp hlen, .inl rfl⟩, fun _ => ⟨none, rfl⟩⟩
    · simp only [except_ok_bind, if_true, not_not.mp hlen, true_and]
      rcases (score query record.vector metric : Except SearchError S) with error | value
      · exact ⟨nofun, fun h => h.elim nofun nofun⟩
      · exact ⟨fun _ => .inr ⟨value, rfl⟩, fun _ => ⟨_, rfl⟩⟩

theorem selectedHits_exists_iff {records : List Record} :
    (∃ hits : List (SearchHit S),
        selectedHits query metric expected predicate records = .ok hits) ↔
      ∀ record ∈ records, ∃ hit : Option (SearchHit S),
        scoreRecord query metric expected predicate record = .ok hit := by
  induction records with
  | nil => exact ⟨fun _ => nofun, fun _ => ⟨[], rfl⟩⟩
  | cons record rest ih =>
    rw [List.forall_mem_cons, ← ih]
    constructor
    · rintro ⟨hits, h⟩
      obtain ⟨hit, hhit, h⟩ := except_bind_ok.mp h
      obtain ⟨others, hothers, -⟩ := except_bind_ok.mp h
      exact ⟨⟨hit, hhit⟩, others, hothers⟩
    · rintro ⟨⟨hit, hhit⟩, others, hothers⟩
      exact ⟨_, except_bind_ok.mpr ⟨hit, hhit, except_bind_ok.mpr ⟨others, hothers, rfl⟩⟩⟩

theorem selectedHits_spec {records : List Record} {hits : List (SearchHit S)}
    (h : selectedHits query metric expected predicate records = .ok hits) :
    (hits.map SearchHit.record).Sublist records ∧ ∀ hit, hit ∈ hits ↔
      hit.record ∈ records ∧
        scoreRecord query metric expected predicate hit.record = .ok (some hit) := by
  induction records generalizing hits with
  | nil =>
    cases h
    exact ⟨List.Sublist.slnil, by simp⟩
  | cons record rest ih =>
    obtain ⟨found, hfound, h⟩ := except_bind_ok.mp h
    obtain ⟨others, hothers, h⟩ := except_bind_ok.mp h
    cases h
    obtain ⟨hsublist, hmem⟩ := ih hothers
    cases found with
    | none =>
      refine ⟨hsublist.cons _, fun hit => ?_⟩
      show hit ∈ others ↔ _
      rw [hmem, List.mem_cons]
      constructor
      · exact fun h => ⟨.inr h.1, h.2⟩
      · rintro ⟨hrecord | hrecord, hscore⟩
        · rw [hrecord, hfound] at hscore
          cases hscore
        · exact ⟨hrecord, hscore⟩
    | some first =>
      obtain ⟨-, -, -, hrecord⟩ := scoreRecord_ok_iff.mp hfound
      refine ⟨?_, fun hit => ?_⟩
      · show (first.record :: others.map SearchHit.record).Sublist _
        rw [hrecord]
        exact hsublist.cons_cons _
      · show hit ∈ first :: others ↔ _
        rw [List.mem_cons, hmem, List.mem_cons]
        constructor
        · rintro (rfl | h)
          · exact ⟨.inl hrecord, by rw [hrecord]; exact hfound⟩
          · exact ⟨.inr h.1, h.2⟩
        · rintro ⟨hhit | hhit, hscore⟩
          · rw [hhit, hfound] at hscore
            cases hscore
            exact .inl rfl
          · exact .inr ⟨hhit, hscore⟩

/-- Without a predicate every record gives a hit. -/
theorem scoreRecord_none_ok {record : Record} {found : Option (SearchHit S)}
    (h : scoreRecord query metric query.length none record = .ok found) :
    ∃ hit, found = some hit ∧ record.vector.length = query.length ∧
      score query record.vector metric = .ok hit.score ∧ hit.record = record := by
  obtain ⟨-, hselects | ⟨-, value, hvalue⟩⟩ := scoreRecord_exists_iff.mp ⟨found, h⟩
  · cases hselects
  · have hlen := (scoreRecord_exists_iff.mp ⟨found, h⟩).1
    have hhit : scoreRecord query metric query.length none record = .ok (some ⟨record, value⟩) :=
      scoreRecord_ok_iff.mpr ⟨hlen, rfl, hvalue, rfl⟩
    rw [hhit] at h
    cases h
    exact ⟨_, rfl, hlen, hvalue, rfl⟩

theorem map_record_of_selectedHits {records : List Record} {hits : List (SearchHit S)}
    (h : selectedHits query metric query.length none records = .ok hits) :
    hits.map SearchHit.record = records := by
  induction records generalizing hits with
  | nil =>
    cases h
    rfl
  | cons record rest ih =>
    obtain ⟨found, hfound, h⟩ := except_bind_ok.mp h
    obtain ⟨others, hothers, h⟩ := except_bind_ok.mp h
    cases h
    obtain ⟨hit, rfl, -, -, hrecord⟩ := scoreRecord_none_ok hfound
    show hit.record :: others.map SearchHit.record = _
    rw [hrecord, ih hothers]

omit [ScoreArith S] in
theorem distinctIds_of_sublist {segments : List Segment} {collectionId : CollectionId}
    {hits : List (SearchHit S)}
    (h : (hits.map SearchHit.record).Sublist (visibleRecords segments collectionId)) :
    DistinctIds hits := by
  have hids : ((visibleRecords segments collectionId).map Record.id).Nodup :=
    List.pairwise_map.mpr (sorted_visibleRecords.imp ne_of_lt)
  have hsub := h.map Record.id
  rw [List.map_map] at hsub
  exact hids.sublist hsub

end Scan

section Request

variable {segments : List Segment} {collectionId : CollectionId} {query : List F32}
  {metric : DistanceMetric} {predicate : Option Predicate}

theorem visibleHits_eq_selectedHits {records : List Record} {hits : List (SearchHit S)}
    (h : visibleHits query metric predicate records = .ok hits) :
    selectedHits query metric query.length predicate records = .ok hits := by
  cases records with
  | nil => exact h
  | cons first rest =>
    rw [visibleHits] at h
    by_cases hlen : query.length ≠ first.vector.length
    · rw [if_pos hlen] at h
      cases h
    · rw [if_neg hlen] at h
      split at h
      · cases h
      · rwa [not_not.mp hlen]

theorem searchVisible_eq {control : QueryControl} (hcontrol : control.check = .ok ()) (topK : ℕ)
    (after : Option (SearchAfter S)) (visible : List Record) :
    searchVisible control query metric topK predicate after visible =
      (visibleHits query metric predicate visible).map fun hits =>
        hits.foldl (keepAfter metric topK after) [] := by
  cases visible with
  | nil => rfl
  | cons first rest =>
    rw [searchVisible, visibleHits]
    by_cases hlen : query.length ≠ first.vector.length
    · rw [if_pos hlen, if_pos hlen]
      rfl
    · rw [if_neg hlen, if_neg hlen]
      by_cases hnorm : metric = .cosine ∧ hasZeroNorm S query
      · rw [if_pos hnorm, if_pos hnorm]
        rfl
      · rw [if_neg hnorm, if_neg hnorm, scan_eq hcontrol, checkControl_ok_iff.mpr hcontrol]
        cases (selectedHits query metric first.vector.length predicate (first :: rest) :
          Except SearchError (List (SearchHit S))) <;> rfl

/-- A search returns the first hits behind its position of one sorted list. -/
theorem exactSearchAfter_eq {control : QueryControl} (hcontrol : control.check = .ok ())
    (topK : ℕ) (after : Option (SearchAfter S)) :
    exactSearchSegmentsAfterWithControl segments collectionId query metric topK predicate after
        control = validateQuery query topK >>= fun _ =>
      (visibleHits query metric predicate (visibleRecords segments collectionId)).map fun hits =>
        ((hits.mergeSort (hitLe metric)).filter (isAfter metric after)).take topK := by
  rw [exactSearchSegmentsAfterWithControl, checkControl_ok_iff.mpr hcontrol]
  show (validateQuery query topK >>= fun _ =>
    searchVisible control query metric topK predicate after (visibleRecords segments collectionId)) = _
  rw [searchVisible_eq hcontrol]
  cases hhits : (visibleHits query metric predicate (visibleRecords segments collectionId) :
    Except SearchError (List (SearchHit S))) with
  | error error => rfl
  | ok hits =>
    have hsublist := (selectedHits_spec (visibleHits_eq_selectedHits hhits)).1
    exact congrArg (fun found => validateQuery query topK >>= fun _ => Except.ok found)
      (foldl_keepAfter (distinctIds_of_sublist hsublist) topK after)

/-- A limit of one already tells which queries are rejected. -/
theorem validateQuery_eq {topK : ℕ} (htop : 0 < topK) (query : List F32) :
    validateQuery query topK = validateQuery query 1 := by
  rw [validateQuery, validateQuery, if_neg (by omega), if_neg Nat.one_ne_zero]

theorem exactSearch_of_valid {topK : ℕ} (hvalid : validateQuery query 1 = .ok ())
    (htop : 0 < topK) (filter : Option Predicate) :
    exactSearchSegmentsAfterWithControl segments collectionId query metric topK filter none
        .unbounded =
      (visibleHits query metric filter (visibleRecords segments collectionId)).map
        fun hits : List (SearchHit S) => (hits.mergeSort (hitLe metric)).take topK := by
  have hall (hits : List (SearchHit S)) : hits.filter (isAfter metric none) = hits :=
    List.filter_eq_self.mpr fun _ _ => rfl
  rw [exactSearchAfter_eq QueryControl.check_unbounded, validateQuery_eq htop, hvalid]
  simp only [hall]
  rfl

/-! ### All pages of a request -/

/-- The pages of a request, each of its own size, until one is not full. -/
def exactSearchPages (segments : List Segment) (collectionId : CollectionId) (query : List F32)
    (metric : DistanceMetric) (predicate : Option Predicate) (size : ℕ → ℕ) (fuel : ℕ) :
    Except SearchError (Option (List (SearchHit S))) :=
  readPages (fun topK after => exactSearchSegmentsAfterWithControl segments collectionId query
    metric topK predicate after .unbounded) (fun hit => ⟨hit.score, hit.record.id⟩) size fuel 0 none

theorem serves_of_visibleHits {hits : List (SearchHit S)}
    (hvalid : validateQuery query 1 = .ok ())
    (h : visibleHits query metric predicate (visibleRecords segments collectionId) = .ok hits) :
    Serves (fun topK after => exactSearchSegmentsAfterWithControl segments collectionId query
      metric topK predicate after .unbounded) (fun hit : SearchHit S => ⟨hit.score, hit.record.id⟩)
      (hits.mergeSort (hitLe metric)) := by
  have hsublist := (selectedHits_spec (visibleHits_eq_selectedHits h)).1
  have hsorted := (distinctIds_of_sublist hsublist).pairwise_before metric
  have hsearch (topK : ℕ) (htop : 0 < topK) (after : Option (SearchAfter S)) :
      exactSearchSegmentsAfterWithControl segments collectionId query metric topK predicate after
        .unbounded = .ok (((hits.mergeSort (hitLe metric)).filter
          (isAfter metric after)).take topK) := by
    rw [exactSearchAfter_eq QueryControl.check_unbounded, validateQuery_eq htop, hvalid, h]
    rfl
  constructor
  · intro topK htop
    have hall : (hits.mergeSort (hitLe metric)).filter (isAfter metric none) =
        hits.mergeSort (hitLe metric) := List.filter_eq_self.mpr fun _ _ => rfl
    rw [hsearch topK htop, hall]
  · intro before last rest hsplit topK htop
    rw [hsplit] at hsorted
    rw [hsearch topK htop, hsplit, filter_eq_of_split hsorted (fun _ _ => before_asymm) _
      fun _ => isAfter_iff_before]

/-- Either every call is rejected with one error, or the pages are together the
strictly sorted list of the visible records that the predicate selects. -/
theorem exactSearchPages_eq (segments : List Segment) (collectionId : CollectionId)
    (query : List F32) (metric : DistanceMetric) (predicate : Option Predicate) {size : ℕ → ℕ}
    (hsize : ∀ page, 1 ≤ size page) {fuel : ℕ}
    (hfuel : (visibleRecords segments collectionId).length < fuel) :
    (∃ error, exactSearchPages (S := S) segments collectionId query metric predicate size fuel =
        .error error ∧ ∀ topK, 0 < topK → ∀ after : Option (SearchAfter S),
          exactSearchSegmentsAfterWithControl segments collectionId query metric topK predicate
            after .unbounded = .error error) ∨
    ∃ hits : List (SearchHit S),
      exactSearchPages segments collectionId query metric predicate size fuel = .ok (some hits) ∧
      hits.Pairwise (fun left right => compareScoreAndId metric left.score left.record.id
        right.score right.record.id = .lt) ∧
      ∀ hit, hit ∈ hits ↔ hit.record ∈ visibleRecords segments collectionId ∧
        (∀ p, predicate = some p → p.evaluate hit.record.metadata = .ok true) ∧
        score query hit.record.vector metric = .ok hit.score := by
  rcases hvalid : validateQuery query 1 with error | ⟨⟨⟩⟩
  · have hreject (topK : ℕ) (htop : 0 < topK) (after : Option (SearchAfter S)) :
        exactSearchSegmentsAfterWithControl segments collectionId query metric topK predicate after
          .unbounded = .error error := by
      rw [exactSearchAfter_eq QueryControl.check_unbounded, validateQuery_eq htop, hvalid]
      rfl
    exact .inl ⟨error, readPages_error (fun topK htop => hreject topK htop none) _ _ (by omega),
      hreject⟩
  rcases hhits : (visibleHits query metric predicate (visibleRecords segments collectionId) :
    Except SearchError (List (SearchHit S))) with error | hits
  · have hreject (topK : ℕ) (htop : 0 < topK) (after : Option (SearchAfter S)) :
        exactSearchSegmentsAfterWithControl segments collectionId query metric topK predicate after
          .unbounded = .error error := by
      rw [exactSearchAfter_eq QueryControl.check_unbounded, validateQuery_eq htop, hvalid, hhits]
      rfl
    exact .inl ⟨error, readPages_error (fun topK htop => hreject topK htop none) _ _ (by omega),
      hreject⟩
  · have hselected := visibleHits_eq_selectedHits hhits
    obtain ⟨hsublist, hmem⟩ := selectedHits_spec hselected
    have hscored := selectedHits_exists_iff.mp ⟨hits, hselected⟩
    have hlength : (hits.mergeSort (hitLe metric)).length < fuel := by
      have hshorter := hsublist.length_le
      rw [List.length_map] at hshorter
      rw [List.length_mergeSort]
      omega
    refine .inr ⟨hits.mergeSort (hitLe metric),
      readPages_eq (serves_of_visibleHits hvalid hhits) hsize hlength,
      (distinctIds_of_sublist hsublist).pairwise_before metric, fun hit => ?_⟩
    rw [List.mem_mergeSort, hmem, scoreRecord_ok_iff]
    apply and_congr_right
    intro hrecord
    have hlen := (scoreRecord_exists_iff.mp (hscored _ hrecord)).1
    rw [selects_ok_true_iff]
    exact ⟨fun h => ⟨h.2.1, h.2.2.1⟩, fun h => ⟨hlen, h.1, h.2, rfl⟩⟩

end Request

/-! ### Two records with one vector -/

theorem pageName_valid : CollectionId.validate "a" = .ok () := by decide

def pageCollection : CollectionId := ⟨"a", pageName_valid⟩

/-- The vector `[1.0]`. -/
def pageVector : Vector := ⟨[⟨0x3f800000⟩], Vector.finite_one⟩

def pageSegment : Segment :=
  ⟨1, pageCollection, 1, 2,
    [⟨.unsigned 0, pageVector, .empty, 1⟩, ⟨.unsigned 1, pageVector, .empty, 2⟩], []⟩

theorem pageSegment_scorable :
    Scorable ℝ [⟨0x3f800000⟩] .dot (visibleRecords [pageSegment] pageCollection) := by
  intro record hrecord
  obtain ⟨segment, hsegment, -, hmem⟩ := mem_records_of_visible hrecord
  rw [List.mem_singleton.mp hsegment] at hmem
  rcases List.mem_cons.mp hmem with rfl | hmem
  · exact ⟨rfl, nofun⟩
  · rw [List.mem_singleton.mp hmem]
    exact ⟨rfl, nofun⟩

/-- Pages of one hit reach both records although their scores are equal. -/
theorem exactSearchPages_sample : ∃ hits : List (SearchHit ℝ),
    exactSearchPages [pageSegment] pageCollection [⟨0x3f800000⟩] .dot none (fun _ => 1)
      ((visibleRecords [pageSegment] pageCollection).length + 1) = .ok (some hits) ∧
    ∀ record ∈ visibleRecords [pageSegment] pageCollection, ∃ hit ∈ hits, hit.record = record := by
  rcases exactSearchPages_eq (S := ℝ) [pageSegment] pageCollection [⟨0x3f800000⟩] .dot none
    (fun _ => Nat.le_refl 1) (Nat.lt_succ_self _) with ⟨error, -, hreject⟩ | ⟨hits, hpages, -, hmem⟩
  · obtain ⟨hits, hhits⟩ : ∃ hits, exactSearchSegmentsWithControl ℝ [pageSegment] pageCollection
        [⟨0x3f800000⟩] .dot 1 .unbounded = .ok hits :=
      exactSearch_ok_iff.mpr ⟨rfl, ⟨Nat.one_pos, List.cons_ne_nil _ _, rfl⟩, pageSegment_scorable⟩
    rw [exactSearchSegmentsWithControl, hreject 1 Nat.one_pos none] at hhits
    cases hhits
  · refine ⟨hits, hpages, fun record hrecord => ?_⟩
    obtain ⟨value, hvalue⟩ := score_ok_iff.mpr (pageSegment_scorable record hrecord).2
    exact ⟨⟨record, value⟩, (hmem _).mpr ⟨hrecord, nofun, hvalue⟩, rfl⟩

end Search

end Ketebe
