import Ketebe.CostPlanner
import Ketebe.SearchPages

/-!
The two exact searches with a filter. One scores and ranks every record and
then filters until it has enough hits, the other filters every record before it
is scored. They differ in the records that they evaluate and score, and so in
the errors that they meet.
-/
namespace Ketebe

open Lib.ByteCodec Lib.BoundedSort Search

def Predicate.FailsOn (predicate : Predicate) (record : Record) : Prop :=
  ∃ error, predicate.evaluate record.metadata = .error error

def Predicate.isSelected (predicate : Predicate) (record : Record) : Bool :=
  match predicate.evaluate record.metadata with
  | .ok value => value
  | .error _ => false

namespace Filter

/-! ### The loop over ranked hits -/

section Select

variable {H : Type} {period : ℕ} {liftControl : QueryControlError → FilteredSearchError}
  {recordOf : H → Record} {predicate : Predicate} {topK : ℕ} {control : QueryControl}

/-- A hit that the predicate fails on, before enough others were selected. -/
def Interrupted (recordOf : H → Record) (predicate : Predicate) (topK found : ℕ) (hits : List H) :
    Prop :=
  ∃ before bad rest, hits = before ++ bad :: rest ∧ predicate.FailsOn (recordOf bad) ∧
    found + before.countP (fun hit => predicate.isSelected (recordOf hit)) < topK

theorem interrupted_cons {found : ℕ} {hit : H} {rest : List H} (hfound : found < topK) :
    Interrupted recordOf predicate topK found (hit :: rest) ↔ predicate.FailsOn (recordOf hit) ∨
      Interrupted recordOf predicate topK
        (found + if predicate.isSelected (recordOf hit) then 1 else 0) rest := by
  constructor
  · rintro ⟨before, bad, after, hsplit, hbad, hcount⟩
    cases before with
    | nil =>
      obtain ⟨rfl, rfl⟩ := List.cons.inj hsplit
      exact .inl hbad
    | cons first before =>
      obtain ⟨rfl, rfl⟩ := List.cons.inj hsplit
      rw [List.countP_cons] at hcount
      exact .inr ⟨before, bad, after, rfl, hbad, by omega⟩
  · rintro (hbad | ⟨before, bad, after, rfl, hbad, hcount⟩)
    · exact ⟨[], hit, rest, rfl, hbad, by simpa using hfound⟩
    · refine ⟨hit :: before, bad, after, rfl, hbad, ?_⟩
      rw [List.countP_cons]
      omega

theorem selectHits_spec (hcontrol : control.check = .ok ()) (position : ℕ) (filtered hits : List H)
    (hfound : filtered.length < topK) :
    (Interrupted recordOf predicate topK filtered.length hits ∧ ∃ error,
      selectHits period liftControl recordOf predicate topK control position filtered hits =
        .error error) ∨
    (¬Interrupted recordOf predicate topK filtered.length hits ∧
      selectHits period liftControl recordOf predicate topK control position filtered hits =
        .ok (filtered ++ (hits.filter fun hit => predicate.isSelected (recordOf hit)).take
          (topK - filtered.length))) := by
  induction hits generalizing position filtered with
  | nil =>
    refine .inr ⟨?_, by simp [selectHits]; rfl⟩
    rintro ⟨before, bad, rest, hsplit, -⟩
    simp at hsplit
  | cons hit rest ih =>
    rw [interrupted_cons hfound, selectHits, checkEvery_ok hcontrol]
    show _ ∧ (∃ error, ((predicate.evaluate (recordOf hit).metadata).mapError
      FilteredSearchError.predicate >>= _) = _) ∨ _ ∧ ((predicate.evaluate
        (recordOf hit).metadata).mapError FilteredSearchError.predicate >>= _) = _
    rcases heval : predicate.evaluate (recordOf hit).metadata with error | selected
    · exact .inl ⟨.inl ⟨error, heval⟩, _, rfl⟩
    · have hnot : ¬predicate.FailsOn (recordOf hit) := by
        rintro ⟨error, herror⟩
        rw [heval] at herror
        cases herror
      have hselected : predicate.isSelected (recordOf hit) = selected := by
        rw [Predicate.isSelected, heval]
      rw [hselected, List.filter_cons, hselected]
      cases selected with
      | false => simpa [hnot, Except.mapError, except_ok_bind] using ih (position + 1) filtered hfound
      | true =>
        have hlength : (filtered ++ [hit]).length = filtered.length + 1 := List.length_append
        by_cases hfull : filtered.length + 1 = topK
        · have hlast : topK - filtered.length = 1 := by omega
          refine .inr ⟨?_, ?_⟩
          · rintro (hbad | ⟨before, bad, after, -, -, hcount⟩)
            · exact hnot hbad
            · rw [if_pos rfl] at hcount
              omega
          · simp [Except.mapError, except_ok_bind, hfull, hlast]
            rfl
        · have hmore : topK - filtered.length = (topK - (filtered.length + 1)) + 1 := by omega
          have hrest := ih (position + 1) (filtered ++ [hit]) (by omega)
          rw [hlength] at hrest
          simpa [hnot, hfull, hmore, Except.mapError, except_ok_bind] using hrest

end Select

variable {S : Type} [ScoreArith S]

/-! ### What both searches evaluate and score -/

/-- The vector of the record can be compared with the query. -/
def Scores (S : Type) [ScoreArith S] (metric : DistanceMetric) (record : Record) : Prop :=
  metric = .cosine → ¬hasZeroNorm S record.vector.values

/-- The order of two records by their scores and ids. -/
def ranksBefore (S : Type) [ScoreArith S] (query : List F32) (metric : DistanceMetric)
    (left right : Record) : Bool :=
  match (score query left.vector metric : Except SearchError S),
      (score query right.vector metric : Except SearchError S) with
  | .ok leftScore, .ok rightScore =>
      (compareScoreAndId metric leftScore left.id rightScore right.id).isLT
  | _, _ => false

/-- A request that is not rejected before the first record is looked at. -/
structure Reaches (S : Type) [ScoreArith S] (query : List F32) (metric : DistanceMetric)
    (visible : List Record) : Prop where
  valid : validateQuery query 1 = .ok ()
  lengths : ∀ record ∈ visible, record.vector.length = query.length
  norm : metric = .cosine → ¬hasZeroNorm S query

/-- When all records have scores, a record that the predicate fails on is met
before enough others are selected. When one has none, a record that the
predicate does not exclude is at fault. -/
structure FiltersAlike (S : Type) [ScoreArith S] (query : List F32) (metric : DistanceMetric)
    (topK : ℕ) (predicate : Predicate) (visible : List Record) : Prop where
  ranked : (∀ record ∈ visible, Scores S metric record) →
    (∃ record ∈ visible, predicate.FailsOn record) → ∃ bad ∈ visible, predicate.FailsOn bad ∧
      visible.countP (fun record => predicate.isSelected record &&
        ranksBefore S query metric record bad) < topK
  scored : (∃ record ∈ visible, ¬Scores S metric record) → ∃ record ∈ visible,
    predicate.FailsOn record ∨ predicate.isSelected record ∧ ¬Scores S metric record

section Scored

variable {query : List F32} {metric : DistanceMetric} {predicate : Predicate}
  {records : List Record} {hits : List (SearchHit S)}

theorem score_ok_iff_scores (hnorm : metric = .cosine → ¬hasZeroNorm S query) {record : Record} :
    (∃ value : S, score query record.vector metric = .ok value) ↔ Scores S metric record := by
  rw [score_ok_iff]
  exact ⟨fun h hmetric => (h hmetric).2, fun h hmetric => ⟨hnorm hmetric, h hmetric⟩⟩

theorem selects_some (record : Record) : (selects (some predicate) record = .ok false ↔
      ¬predicate.FailsOn record ∧ ¬predicate.isSelected record) ∧
    (selects (some predicate) record = .ok true ↔ predicate.isSelected record) := by
  have hselects : selects (some predicate) record =
      (predicate.evaluate record.metadata).mapError SearchError.predicate := rfl
  rw [hselects, mapError_ok_iff, mapError_ok_iff, Predicate.FailsOn, Predicate.isSelected]
  rcases predicate.evaluate record.metadata with error | _ | _ <;> simp

/-- A predicate that fails on no record filters the hits. -/
theorem selectedHits_filter (h : selectedHits query metric query.length none records = .ok hits)
    (hfails : ∀ record ∈ records, ¬predicate.FailsOn record) :
    selectedHits query metric query.length (some predicate) records =
      .ok (hits.filter fun hit => predicate.isSelected hit.record) := by
  induction records generalizing hits with
  | nil =>
    cases h
    rfl
  | cons record rest ih =>
    obtain ⟨hrecord, hrest⟩ := List.forall_mem_cons.mp hfails
    obtain ⟨found, hfound, h⟩ := except_bind_ok.mp h
    obtain ⟨others, hothers, h⟩ := except_bind_ok.mp h
    cases h
    obtain ⟨hit, rfl, hlen, hscore, hsame⟩ := scoreRecord_none_ok hfound
    rw [selectedHits, ih hothers hrest]
    show _ = Except.ok (List.filter _ (hit :: others))
    rw [List.filter_cons, hsame]
    by_cases hselected : predicate.isSelected record
    · have hhit : scoreRecord query metric query.length (some predicate) record = .ok (some hit) :=
        scoreRecord_ok_iff.mpr ⟨hlen, (selects_some record).2.mpr hselected, hscore, hsame⟩
      rw [hhit, if_pos hselected]
      rfl
    · have hnone : scoreRecord query metric query.length (some predicate) record =
          .ok (none : Option (SearchHit S)) := by
        rw [scoreRecord, if_neg (not_not.mpr hlen),
          (selects_some record).1.mpr ⟨hrecord, hselected⟩]
        rfl
      rw [hnone, if_neg hselected]
      rfl

end Scored

/-! ### Failures -/

section Failures

variable {query : List F32} {metric : DistanceMetric} {visible : List Record}

theorem visibleHits_of_reaches (h : Reaches S query metric visible)
    (predicate : Option Predicate) : visibleHits query metric predicate visible =
      (selectedHits query metric query.length predicate visible :
        Except SearchError (List (SearchHit S))) := by
  cases visible with
  | nil => rfl
  | cons first rest =>
    have hlen := h.lengths first (List.mem_cons_self ..)
    rw [visibleHits, if_neg (not_not.mpr hlen.symm), if_neg fun hzero => h.norm hzero.1 hzero.2, hlen]

theorem reaches_of_visibleHits {predicate : Option Predicate} {hits : List (SearchHit S)}
    (hvalid : validateQuery query 1 = .ok ()) (hvisible : visible ≠ [])
    (h : visibleHits query metric predicate visible = .ok hits) : Reaches S query metric visible := by
  refine ⟨hvalid, fun record hrecord => ?_, fun hmetric hzero => ?_⟩
  · have hscored := selectedHits_exists_iff.mp ⟨hits, visibleHits_eq_selectedHits h⟩
    exact (scoreRecord_exists_iff.mp (hscored record hrecord)).1
  · cases visible with
    | nil => exact hvisible rfl
    | cons first rest =>
      rw [visibleHits] at h
      split at h
      · cases h
      · rw [if_pos ⟨hmetric, hzero⟩] at h
        cases h

theorem hits_without_predicate (h : Reaches S query metric visible) :
    (∃ hits : List (SearchHit S), visibleHits query metric none visible = .ok hits) ↔
      ∀ record ∈ visible, Scores S metric record := by
  rw [visibleHits_of_reaches h, selectedHits_exists_iff]
  refine forall₂_congr fun record hrecord => ?_
  rw [scoreRecord_exists_iff, ← score_ok_iff_scores h.norm]
  constructor
  · rintro ⟨-, hselects | ⟨-, hscore⟩⟩
    · cases hselects
    · exact hscore
  · exact fun hscore => ⟨h.lengths record hrecord, .inr ⟨rfl, hscore⟩⟩

theorem hits_with_predicate (h : Reaches S query metric visible) (predicate : Predicate) :
    (∃ hits : List (SearchHit S), visibleHits query metric (some predicate) visible = .ok hits) ↔
      ¬∃ record ∈ visible, predicate.FailsOn record ∨
        predicate.isSelected record ∧ ¬Scores S metric record := by
  rw [visibleHits_of_reaches h, selectedHits_exists_iff]
  simp only [not_exists, not_and, not_or]
  refine forall₂_congr fun record hrecord => ?_
  rw [scoreRecord_exists_iff, (selects_some record).1, (selects_some record).2,
    score_ok_iff_scores h.norm]
  have hlen := h.lengths record hrecord
  have hnot : predicate.isSelected record → ¬predicate.FailsOn record := by
    rw [Predicate.isSelected, Predicate.FailsOn]
    rcases predicate.evaluate record.metadata with error | _ | _ <;> simp
  tauto

end Failures

/-! ### The ranked order -/

section Ranked

variable {query : List F32} {metric : DistanceMetric} {visible : List Record}
  {hits : List (SearchHit S)}

theorem ranksBefore_of_scored {left right : SearchHit S}
    (hleft : score query left.record.vector metric = .ok left.score)
    (hright : score query right.record.vector metric = .ok right.score) :
    ranksBefore S query metric left.record right.record ↔ Before metric left right := by
  rw [ranksBefore, hleft, hright]
  exact Ordering.isLT_iff_eq_lt

/-- The records that rank before one are those in front of it in the sorted list. -/
theorem countP_ranksBefore (p : Record → Bool) (hdistinct : DistinctIds hits)
    (hrecords : hits.map SearchHit.record = visible)
    (hscored : ∀ hit ∈ hits, score query hit.record.vector metric = .ok hit.score)
    {before rest : List (SearchHit S)} {bad : SearchHit S}
    (hsplit : hits.mergeSort (hitLe metric) = before ++ bad :: rest) :
    visible.countP (fun record => p record && ranksBefore S query metric record bad.record) =
      before.countP fun hit => p hit.record := by
  have hsorted := hdistinct.pairwise_before metric
  have hmem (hit : SearchHit S) (hhit : hit ∈ before ++ bad :: rest) :
      score query hit.record.vector metric = .ok hit.score := by
    rw [← hsplit, List.mem_mergeSort] at hhit
    exact hscored hit hhit
  have hbad := hmem bad (by simp)
  rw [hsplit] at hsorted
  obtain ⟨-, hafter, hbefore⟩ := List.pairwise_append.mp hsorted
  obtain ⟨hrest, -⟩ := List.pairwise_cons.mp hafter
  have hperm : (before ++ bad :: rest).Perm hits := hsplit ▸ List.mergeSort_perm hits _
  rw [← hrecords, List.countP_map, ← hperm.countP_eq, List.countP_append]
  have hnone : (bad :: rest).countP ((fun record => p record &&
      ranksBefore S query metric record bad.record) ∘ SearchHit.record) = 0 := by
    rw [List.countP_eq_zero]
    intro hit hhit hboth
    have hrank := (ranksBefore_of_scored (hmem hit (by simp [hhit])) hbad).mp
      (Bool.and_eq_true_iff.mp hboth).2
    rcases List.mem_cons.mp hhit with rfl | hhit
    · exact before_asymm hrank hrank
    · exact before_asymm hrank (hrest hit hhit)
  rw [hnone, Nat.add_zero]
  refine List.countP_congr fun hit hhit => ?_
  have hrank : ranksBefore S query metric hit.record bad.record :=
    (ranksBefore_of_scored (hmem hit (by simp [hhit])) hbad).mpr
      (hbefore hit hhit bad (List.mem_cons_self ..))
  simp only [Function.comp_apply, hrank, Bool.and_true]

theorem interrupted_iff {predicate : Predicate} {topK : ℕ} (hdistinct : DistinctIds hits)
    (hrecords : hits.map SearchHit.record = visible)
    (hscored : ∀ hit ∈ hits, score query hit.record.vector metric = .ok hit.score) :
    Interrupted SearchHit.record predicate topK 0 (hits.mergeSort (hitLe metric)) ↔
      ∃ bad ∈ visible, predicate.FailsOn bad ∧
        visible.countP (fun record => predicate.isSelected record &&
          ranksBefore S query metric record bad) < topK := by
  constructor
  · rintro ⟨before, bad, rest, hsplit, hbad, hcount⟩
    have hsorted : bad ∈ hits.mergeSort (hitLe metric) := by
      rw [hsplit]
      exact List.mem_append_right _ (List.mem_cons_self ..)
    have hmem : bad ∈ hits := List.mem_mergeSort.mp hsorted
    refine ⟨bad.record, hrecords ▸ List.mem_map_of_mem hmem, hbad, ?_⟩
    rw [countP_ranksBefore _ hdistinct hrecords hscored hsplit]
    omega
  · rintro ⟨record, hrecord, hbad, hcount⟩
    rw [← hrecords] at hrecord
    obtain ⟨bad, hmem, rfl⟩ := List.mem_map.mp hrecord
    rw [← List.mem_mergeSort] at hmem
    obtain ⟨before, rest, hsplit⟩ := List.append_of_mem hmem
    rw [countP_ranksBefore _ hdistinct hrecords hscored hsplit] at hcount
    exact ⟨before, bad, rest, hsplit, hbad, by omega⟩

end Ranked

/-! ### Both searches -/

/-- Both succeed with the same ids and scores in the same order, or both fail. -/
def Agree (filtered : Except FilteredSearchError (List (SearchHit S)))
    (after : Except SearchError (List (SearchHit S))) : Prop :=
  (∃ left right, filtered = .ok left ∧ after = .ok right ∧
    left.map (fun hit => (hit.record.id, hit.score)) =
      right.map (fun hit => (hit.record.id, hit.score))) ∨
  ∃ filteredError afterError, filtered = .error filteredError ∧ after = .error afterError

omit [ScoreArith S] in
theorem agree_error_iff {error : SearchError}
    {filtered : Except FilteredSearchError (List (SearchHit S))} :
    Agree filtered (.error error) ↔ ∃ filteredError, filtered = .error filteredError := by
  constructor
  · rintro (⟨_, _, _, ⟨⟩, _⟩ | ⟨filteredError, _, h, _⟩)
    exact ⟨filteredError, h⟩
  · exact fun ⟨filteredError, h⟩ => .inr ⟨filteredError, error, h, rfl⟩

omit [ScoreArith S] in
theorem error_agree_iff {error : FilteredSearchError}
    {after : Except SearchError (List (SearchHit S))} :
    Agree (.error error) after ↔ ∃ afterError, after = .error afterError := by
  constructor
  · rintro (⟨_, _, ⟨⟩, _⟩ | ⟨_, afterError, _, h⟩)
    exact ⟨afterError, h⟩
  · exact fun ⟨afterError, h⟩ => .inr ⟨error, afterError, rfl, h⟩

section Both

variable (segments : List Segment) (collectionId : CollectionId) (query : List F32)
  (metric : DistanceMetric) {topK : ℕ} (predicate : Predicate)

theorem filtered_of_exact_error (htop : 0 < topK) {error : SearchError}
    (h : exactSearchSegmentsWithControl S segments collectionId query metric usizeMax .unbounded =
      .error error) :
    exactSearchFilteredSegmentsWithControl S segments collectionId query metric topK predicate
      .unbounded = .error (.exact error) := by
  rw [exactSearchFilteredSegmentsWithControl, if_neg (by omega), h]
  rfl

theorem filtered_of_exact_ok (htop : 0 < topK) {ranked : List (SearchHit S)}
    (h : exactSearchSegmentsWithControl S segments collectionId query metric usizeMax .unbounded =
      .ok ranked) :
    exactSearchFilteredSegmentsWithControl S segments collectionId query metric topK predicate
      .unbounded = selectHits 256 (fun error => .exact (.control error)) SearchHit.record predicate
        topK .unbounded 0 [] ranked := by
  rw [exactSearchFilteredSegmentsWithControl, if_neg (by omega), h]
  rfl

theorem usizeMax_pos : 0 < usizeMax := by decide

section Valid

variable {query metric} {segments collectionId}

theorem exactSearch_error_of_valid (hvalid : validateQuery query 1 = .ok ()) (htop : 0 < topK)
    (filter : Option Predicate) :
    (∃ error, exactSearchSegmentsAfterWithControl (S := S) segments collectionId query metric topK
        filter none .unbounded = .error error) ↔
      ¬∃ hits : List (SearchHit S),
        visibleHits query metric filter (visibleRecords segments collectionId) = .ok hits := by
  rw [exactSearch_of_valid hvalid htop]
  rcases (visibleHits query metric filter (visibleRecords segments collectionId) :
    Except SearchError (List (SearchHit S))) with error | hits
  · exact ⟨fun _ => nofun, fun _ => ⟨error, rfl⟩⟩
  · exact ⟨nofun, fun h => absurd ⟨hits, rfl⟩ h⟩

end Valid

/-- A request that does not reach the records is rejected by both, or there are none. -/
theorem agree_of_not_reaches (htop : 0 < topK)
    (h : ¬Reaches S query metric (visibleRecords segments collectionId)) :
    Agree (exactSearchFilteredSegmentsWithControl S segments collectionId query metric topK predicate
        .unbounded)
      (exactSearchSegmentsAfterWithControl segments collectionId query metric topK (some predicate)
        none .unbounded) := by
  rcases hvalid : validateQuery query 1 with error | ⟨⟨⟩⟩
  · have hreject (limit : ℕ) (hlimit : 0 < limit) (filter : Option Predicate) :
        exactSearchSegmentsAfterWithControl (S := S) segments collectionId query metric limit filter
          none .unbounded = .error error := by
      rw [exactSearchAfter_eq QueryControl.check_unbounded, validateQuery_eq hlimit, hvalid]
      rfl
    rw [hreject topK htop, filtered_of_exact_error _ _ _ _ _ htop (hreject _ usizeMax_pos none)]
    exact .inr ⟨_, _, rfl, rfl⟩
  by_cases hvisible : visibleRecords segments collectionId = []
  · have hempty (limit : ℕ) (hlimit : 0 < limit) (filter : Option Predicate) :
        exactSearchSegmentsAfterWithControl (S := S) segments collectionId query metric limit filter
          none .unbounded = .ok [] := by
      rw [exactSearch_of_valid hvalid hlimit, hvisible]
      show Except.ok (([].mergeSort _).take limit) = _
      rw [List.mergeSort_nil, List.take_nil]
    rw [hempty topK htop, filtered_of_exact_ok _ _ _ _ _ htop (hempty _ usizeMax_pos none)]
    exact .inl ⟨[], [], rfl, rfl, rfl⟩
  · have hfail (limit : ℕ) (hlimit : 0 < limit) (filter : Option Predicate) :
        ∃ error, exactSearchSegmentsAfterWithControl (S := S) segments collectionId query metric
          limit filter none .unbounded = .error error := by
      rw [exactSearch_error_of_valid hvalid hlimit]
      rintro ⟨hits, hhits⟩
      exact h (reaches_of_visibleHits hvalid hvisible hhits)
    obtain ⟨exactError, hexact⟩ := hfail _ usizeMax_pos none
    obtain ⟨afterError, hafter⟩ := hfail topK htop (some predicate)
    rw [hafter, filtered_of_exact_error _ _ _ _ _ htop hexact]
    exact .inr ⟨_, _, rfl, rfl⟩

/-- All records have scores: the ranked loop decides. -/
theorem agree_iff_of_scores (htop : 0 < topK)
    (hsize : (visibleRecords segments collectionId).length ≤ usizeMax)
    (h : Reaches S query metric (visibleRecords segments collectionId))
    (hscores : ∀ record ∈ visibleRecords segments collectionId, Scores S metric record) :
    Agree (exactSearchFilteredSegmentsWithControl S segments collectionId query metric topK predicate
        .unbounded)
      (exactSearchSegmentsAfterWithControl segments collectionId query metric topK (some predicate)
        none .unbounded) ↔
    ((∃ record ∈ visibleRecords segments collectionId, predicate.FailsOn record) →
      ∃ bad ∈ visibleRecords segments collectionId, predicate.FailsOn bad ∧
        (visibleRecords segments collectionId).countP (fun record =>
          predicate.isSelected record && ranksBefore S query metric record bad) < topK) := by
  obtain ⟨hits, hhits⟩ := (hits_without_predicate h).mpr hscores
  have hselected := visibleHits_eq_selectedHits hhits
  have hrecords := map_record_of_selectedHits hselected
  have hdistinct := distinctIds_of_sublist (hrecords ▸ List.Sublist.refl _ :
    (hits.map SearchHit.record).Sublist (visibleRecords segments collectionId))
  have hscored (hit : SearchHit S) (hhit : hit ∈ hits) :
      score query hit.record.vector metric = .ok hit.score :=
    (scoreRecord_ok_iff.mp (((selectedHits_spec hselected).2 hit).mp hhit).2).2.2.1
  have hranked : exactSearchSegmentsWithControl S segments collectionId query metric usizeMax
      .unbounded = .ok (hits.mergeSort (hitLe metric)) := by
    have hlength : (hits.mergeSort (hitLe metric)).length ≤ usizeMax := by
      rw [List.length_mergeSort, ← List.length_map SearchHit.record, hrecords]
      exact hsize
    rw [exactSearchSegmentsWithControl, exactSearch_of_valid h.valid usizeMax_pos, hhits]
    exact congrArg Except.ok (List.take_of_length_le hlength)
  rw [filtered_of_exact_ok _ _ _ _ _ htop hranked, ← interrupted_iff hdistinct hrecords hscored]
  have hspec := @selectHits_spec (SearchHit S) 256 (fun error => .exact (.control error))
    SearchHit.record predicate topK .unbounded QueryControl.check_unbounded 0 []
    (hits.mergeSort (hitLe metric)) htop
  by_cases hfails : ∃ record ∈ visibleRecords segments collectionId, predicate.FailsOn record
  · obtain ⟨error, hafter⟩ := (exactSearch_error_of_valid (S := S) h.valid htop (some predicate)).mpr
      fun hok => (hits_with_predicate h predicate).mp hok
        (hfails.imp fun record hrecord => ⟨hrecord.1, .inl hrecord.2⟩)
    rw [hafter, agree_error_iff]
    rcases hspec with ⟨hinterrupted, herror⟩ | ⟨hnot, hok⟩
    · exact ⟨fun _ _ => hinterrupted, fun _ => herror⟩
    · refine ⟨fun hboth => ?_, fun hback => absurd (hback hfails) hnot⟩
      obtain ⟨_, herror⟩ := hboth
      rw [hok] at herror
      cases herror
  · refine ⟨fun _ hsome => absurd hsome hfails, fun _ => ?_⟩
    have hnone : ∀ record ∈ visibleRecords segments collectionId, ¬predicate.FailsOn record :=
      fun record hrecord hfail => hfails ⟨record, hrecord, hfail⟩
    rcases hspec with ⟨hinterrupted, -⟩ | ⟨-, hok⟩
    · obtain ⟨bad, hbad, hfail, -⟩ := (interrupted_iff hdistinct hrecords hscored).mp hinterrupted
      exact absurd hfail (hnone bad hbad)
    · rw [hok, exactSearch_of_valid h.valid htop, visibleHits_of_reaches h,
        selectedHits_filter hselected hnone]
      refine .inl ⟨_, _, rfl, rfl, ?_⟩
      rw [← (hdistinct.orders metric).mergeSort_filter fun hit => predicate.isSelected hit.record]
      rfl

/-- The paths of a filtered query agree exactly when the records that only one
of them evaluates or scores do not decide about its success. -/
theorem agree_iff (htop : 1 ≤ topK)
    (hsize : (visibleRecords segments collectionId).length ≤ usizeMax) :
    Agree (exactSearchFilteredSegmentsWithControl S segments collectionId query metric topK predicate
        .unbounded)
      (exactSearchSegmentsAfterWithControl segments collectionId query metric topK (some predicate)
        none .unbounded) ↔
    (Reaches S query metric (visibleRecords segments collectionId) →
      FiltersAlike S query metric topK predicate (visibleRecords segments collectionId)) := by
  by_cases h : Reaches S query metric (visibleRecords segments collectionId)
  swap
  · exact ⟨fun _ hreaches => absurd hreaches h,
      fun _ => agree_of_not_reaches segments collectionId query metric predicate htop h⟩
  by_cases hscores : ∀ record ∈ visibleRecords segments collectionId, Scores S metric record
  · rw [agree_iff_of_scores segments collectionId query metric predicate htop hsize h hscores]
    constructor
    · intro hranked _
      refine ⟨fun _ => hranked, ?_⟩
      rintro ⟨record, hrecord, hscore⟩
      exact absurd (hscores record hrecord) hscore
    · exact fun halike => (halike h).ranked hscores
  · obtain ⟨error, hexact⟩ := (exactSearch_error_of_valid (S := S) h.valid usizeMax_pos none).mpr
      fun hok => hscores ((hits_without_predicate h).mp hok)
    rw [filtered_of_exact_error _ _ _ _ _ htop hexact, error_agree_iff,
      exactSearch_error_of_valid h.valid htop, hits_with_predicate h, not_not]
    constructor
    · exact fun hfault _ => ⟨fun hall => absurd hall hscores, fun _ => hfault⟩
    · intro halike
      push Not at hscores
      exact (halike h).scored hscores

end Both

/-! ### A zero vector that the predicate excludes -/

/-- The vector `[0.0]`. -/
def zeroRecord : Record := ⟨.unsigned 0, ⟨[⟨0⟩], Vector.finite_zero⟩, .empty, 1⟩

def zeroSegment : Segment := ⟨1, pageCollection, 1, 1, [zeroRecord], []⟩

/-- The field `a` is present. -/
def presentPredicate : Predicate := .exists ⟨"a", [], by decide⟩

theorem visible_zeroSegment : visibleRecords [zeroSegment] pageCollection = [zeroRecord] :=
  visibleRecords_of_segment (List.pairwise_singleton ..) rfl

theorem agree_iff_sample :
    Agree (exactSearchFilteredSegmentsWithControl ℝ [zeroSegment] pageCollection [⟨0x3f800000⟩] .dot
        1 presentPredicate .unbounded)
      (exactSearchSegmentsAfterWithControl [zeroSegment] pageCollection [⟨0x3f800000⟩] .dot 1
        (some presentPredicate) none .unbounded) ↔
    (Reaches ℝ [⟨0x3f800000⟩] .dot (visibleRecords [zeroSegment] pageCollection) →
      FiltersAlike ℝ [⟨0x3f800000⟩] .dot 1 presentPredicate
        (visibleRecords [zeroSegment] pageCollection)) := by
  exact agree_iff [zeroSegment] pageCollection [⟨0x3f800000⟩] .dot presentPredicate (Nat.le_refl 1)
    (by rw [visible_zeroSegment]; decide)

/-- The query `[1.0]` under cosine for one hit. -/
theorem not_agree_excluded_zero_vector :
    ¬Agree (exactSearchFilteredSegmentsWithControl ℝ [zeroSegment] pageCollection [⟨0x3f800000⟩]
        .cosine 1 presentPredicate .unbounded)
      (exactSearchSegmentsAfterWithControl [zeroSegment] pageCollection [⟨0x3f800000⟩] .cosine 1
        (some presentPredicate) none .unbounded) := by
  have hquery : ¬hasZeroNorm ℝ [⟨0x3f800000⟩] := by
    rw [hasZeroNorm_real]
    decide
  have hzero : hasZeroNorm ℝ zeroRecord.vector.values := by
    rw [hasZeroNorm_real]
    decide
  have hreaches : Reaches ℝ [⟨0x3f800000⟩] .cosine (visibleRecords [zeroSegment] pageCollection) := by
    rw [visible_zeroSegment]
    exact ⟨rfl, fun record hrecord => by rw [List.mem_singleton.mp hrecord]; rfl, fun _ => hquery⟩
  obtain ⟨error, hexact⟩ := (exactSearch_error_of_valid (S := ℝ) hreaches.valid usizeMax_pos
    none).mpr fun hok => (hits_without_predicate hreaches).mp hok zeroRecord
      (by rw [visible_zeroSegment]; exact List.mem_singleton_self _) rfl hzero
  rw [filtered_of_exact_error _ _ _ _ _ Nat.one_pos hexact, error_agree_iff,
    exactSearch_error_of_valid hreaches.valid Nat.one_pos, hits_with_predicate hreaches, not_not,
    visible_zeroSegment]
  rintro ⟨record, hrecord, hfault⟩
  rw [List.mem_singleton.mp hrecord] at hfault
  rcases hfault with ⟨error, ⟨⟩⟩ | ⟨⟨⟩, -⟩

end Filter

end Ketebe
