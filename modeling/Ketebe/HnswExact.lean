import Ketebe.HnswReach

/-!
A search whose beam has room for every record. It answers with the exact ranking
of the records that the edges of layer 0 lead to. Lists of neighbours that have
room for all other records are never cut, and then these are all records.
-/
namespace Ketebe

open Lib.ByteCodec Lib.BoundedSort Search

namespace HnswIndex

variable {S : Type} [ScoreArith S] {index index' : HnswIndex} {query : List F32} {layer : ℕ}
  {control : QueryControl}

/-! ### The hits of a search -/

/-- Layer 0 leads to the record from where the descent for the query lands. -/
def Finds (S : Type) [ScoreArith S] (index : HnswIndex) (query : List F32) (record : Record) :
    Prop :=
  ∃ entry landing position node, index.entryPoint = some entry ∧
    descend S index query .unbounded entry (layersDown 1 index.maxLevel) = .ok landing ∧
    index.Reachable 0 landing position ∧ index.nodes[position]? = some node ∧ node.record = record

def toSearchHit (hit : HnswHit S) : SearchHit S := ⟨hit.record, hit.score⟩

theorem getNode_ok_iff {position : ℕ} {node : HnswNode} :
    index.getNode position = .ok node ↔ index.nodes[position]? = some node := by
  unfold getNode
  cases index.nodes[position]? <;> simp

/-- Both searches score alike. -/
theorem score_eq_ok {vector : Vector} {metric : DistanceMetric} {value : S}
    (h : score query vector.values metric = .ok value) :
    Search.score query vector metric = .ok value := by
  unfold score at h
  unfold Search.score
  cases metric with
  | l2 | dot =>
    cases h
    rfl
  | cosine =>
    cases hcosine : (cosine query vector.values : Option S) with
    | none => simp [hcosine] at h
    | some found => simpa [hcosine] using h

/-- Every candidate gives one hit, with its record and the score of exact search. -/
theorem collectHits_spec {candidates : List ℕ} {position : ℕ} {hits : List (HnswHit S)}
    (h : collectHits S index query control position candidates = .ok hits) :
    hits.map (fun hit => some hit.record) =
        candidates.map (fun candidate => index.nodes[candidate]?.map HnswNode.record) ∧
      ∀ hit ∈ hits, Search.score query hit.record.vector index.metric = .ok hit.score := by
  induction candidates generalizing position hits with
  | nil =>
    cases h
    exact ⟨rfl, nofun⟩
  | cons candidate rest ih =>
    obtain ⟨⟨⟩, -, h⟩ := except_bind_ok.mp h
    obtain ⟨node, hnode, h⟩ := except_bind_ok.mp h
    obtain ⟨value, hvalue, h⟩ := except_bind_ok.mp h
    obtain ⟨others, hothers, h⟩ := except_bind_ok.mp h
    cases h
    obtain ⟨hrecords, hscores⟩ := ih hothers
    refine ⟨?_, List.forall_mem_cons.mpr ⟨score_eq_ok (mapError_ok_iff.mp hvalue), hscores⟩⟩
    rw [List.map_cons, List.map_cons, hrecords, getNode_ok_iff.mp hnode]
    rfl

theorem mem_hits_iff {candidates : List ℕ} {position : ℕ} {hits : List (HnswHit S)}
    (h : collectHits S index query control position candidates = .ok hits) {hit : SearchHit S} :
    hit ∈ hits.map toSearchHit ↔ (∃ candidate ∈ candidates, ∃ node,
        index.nodes[candidate]? = some node ∧ node.record = hit.record) ∧
      Search.score query hit.record.vector index.metric = .ok hit.score := by
  obtain ⟨hrecords, hscores⟩ := collectHits_spec h
  constructor
  · intro hmem
    obtain ⟨found, hfound, rfl⟩ := List.mem_map.mp hmem
    refine ⟨?_, hscores found hfound⟩
    have hrecord := List.mem_map_of_mem (f := fun hit : HnswHit S => some hit.record) hfound
    rw [hrecords] at hrecord
    obtain ⟨candidate, hcandidate, hnode⟩ := List.mem_map.mp hrecord
    obtain ⟨node, hnode, heq⟩ := Option.map_eq_some_iff.mp hnode
    exact ⟨candidate, hcandidate, node, hnode, heq⟩
  · rintro ⟨⟨candidate, hcandidate, node, hnode, hrecord⟩, hscore⟩
    have hmem := List.mem_map_of_mem
      (f := fun candidate => index.nodes[candidate]?.map HnswNode.record) hcandidate
    rw [← hrecords] at hmem
    obtain ⟨found, hfound, heq⟩ := List.mem_map.mp hmem
    rw [hnode] at heq
    have hfoundRecord : found.record = hit.record := (Option.some.inj heq).trans hrecord
    have hfoundScore := hscores found hfound
    rw [hfoundRecord, hscore] at hfoundScore
    refine List.mem_map.mpr ⟨found, hfound, ?_⟩
    cases hit
    cases hfoundRecord
    cases hfoundScore
    rfl

/-- Distinct candidates give hits with distinct ids. -/
theorem distinctIds_of_collectHits (hdistinct : (index.records.map Record.id).Nodup)
    {candidates : List ℕ} (hcandidates : candidates.Nodup)
    (hwithin : ∀ candidate ∈ candidates, index.InLayer layer candidate) {position : ℕ}
    {hits : List (HnswHit S)}
    (h : collectHits S index query control position candidates = .ok hits) :
    DistinctIds (hits.map toSearchHit) := by
  have hids : (hits.map toSearchHit).map (fun hit => some hit.record.id) =
      candidates.map fun candidate => (index.records.map Record.id)[candidate]? := by
    have hrecords := congrArg (List.map (Option.map Record.id)) (collectHits_spec h).1
    simpa only [List.map_map, Function.comp_def, Option.map_some, Option.map_map, records,
      List.getElem?_map, toSearchHit] using hrecords
  have hsome : (candidates.map fun candidate => (index.records.map Record.id)[candidate]?).Nodup := by
    refine hcandidates.map_on fun a ha b hb heq => ?_
    have hlt := (hwithin a ha).lt
    exact (List.getElem?_inj (by simpa [records] using hlt) hdistinct).mp heq
  rw [← hids] at hsome
  have hmap : (hits.map toSearchHit).map (fun hit => some hit.record.id) =
      ((hits.map toSearchHit).map fun hit => hit.record.id).map some := by
    simp only [List.map_map, Function.comp_def]
  rw [hmap] at hsome
  exact List.Nodup.of_map some hsome

/-! ### The answer -/

theorem searchFrom_eq {topK entry : ℕ} {found : List (HnswHit S)}
    (h : index.searchFrom S query topK entry control = .ok found) :
    ∃ landing candidates hits,
      descend S index query control entry (layersDown 1 index.maxLevel) = .ok landing ∧
      searchLayerControlled S index query landing index.config.efSearch 0 control =
        .ok candidates ∧
      collectHits S index query control 0 candidates = .ok hits ∧
      found.map toSearchHit = ((hits.map toSearchHit).mergeSort fun left right =>
        (comparePosition index.metric left right).isLE).take topK := by
  obtain ⟨landing, hlanding, h⟩ := except_bind_ok.mp h
  obtain ⟨candidates, hcandidates, h⟩ := except_bind_ok.mp h
  obtain ⟨hits, hhits, h⟩ := except_bind_ok.mp h
  obtain ⟨⟨⟩, -, h⟩ := except_bind_ok.mp h
  cases h
  refine ⟨landing, candidates, hits, hlanding, hcandidates, hhits, ?_⟩
  have hsort : (hits.mergeSort fun left right => (compareHits index.metric left right).isLE).map
      toSearchHit = (hits.map toSearchHit).mergeSort fun left right =>
        (comparePosition index.metric left right).isLE :=
    List.map_mergeSort fun _ _ _ _ => rfl
  rw [List.map_take, hsort]

variable {segments : List Segment} {collectionId : CollectionId} {metric : DistanceMetric}
  {config : HnswConfig} {topK : ℕ}

/-- A query that the index accepts has an exact ranking of all visible records. -/
theorem IndexOf.ranking (hindex : IndexOf S index segments collectionId metric config)
    (hquery : index.validateQuery S query topK = .ok ()) :
    ∃ ranking : List (SearchHit S), ranking.Pairwise (Before metric) ∧
      (∀ hit, hit ∈ ranking ↔ hit.record ∈ visibleRecords segments collectionId ∧
        Search.score query hit.record.vector metric = .ok hit.score) ∧
      ranking.length = (visibleRecords segments collectionId).length ∧
      ∀ limit, 0 < limit → exactSearchSegmentsWithControl S segments collectionId query metric limit
        .unbounded = .ok (ranking.take limit) := by
  obtain ⟨-, -, hnonempty, hfinite, hdimension, hnorm⟩ := validateQuery_ok_iff.mp hquery
  have hvalid : Search.validateQuery query 1 = .ok () :=
    Search.validateQuery_ok_iff.mpr ⟨Nat.one_pos, hnonempty, hfinite⟩
  have hscorable : Scorable S query metric (visibleRecords segments collectionId) := by
    intro record hrecord
    rw [← hindex.records] at hrecord
    obtain ⟨node, hnode, rfl⟩ := List.mem_map.mp hrecord
    obtain ⟨hlen, hnodeNorm⟩ := hindex.built.valid.comparable node hnode
    rw [← hindex.sameMetric]
    refine ⟨?_, fun hmetric => ⟨hnorm hmetric, hnodeNorm hmetric⟩⟩
    rcases hrecords : index.records with _ | ⟨first, rest⟩
    · rw [hrecords] at hrecord
      cases hrecord
    · have hsome := hindex.dimension
      rw [hrecords] at hsome
      rw [hsome] at hlen
      exact hlen.trans (hdimension _ hsome).symm
  obtain ⟨kept, hkept⟩ := exactSearch_ok_iff.mpr
    ⟨QueryControl.check_unbounded, ⟨Nat.one_pos, hnonempty, hfinite⟩, hscorable⟩
  rw [exactSearchSegmentsWithControl, exactSearch_of_valid hvalid Nat.one_pos] at hkept
  cases hhits : (visibleHits query metric none (visibleRecords segments collectionId) :
    Except SearchError (List (SearchHit S))) with
  | error error =>
    rw [hhits] at hkept
    cases hkept
  | ok hits =>
    have hselected := visibleHits_eq_selectedHits hhits
    obtain ⟨hsublist, hmem⟩ := selectedHits_spec hselected
    refine ⟨hits.mergeSort (hitLe metric), (distinctIds_of_sublist hsublist).pairwise_before metric,
      fun hit => ?_, ?_, fun limit hlimit => ?_⟩
    · rw [List.mem_mergeSort, hmem, scoreRecord_ok_iff]
      constructor
      · exact fun h => ⟨h.1, h.2.2.2.1⟩
      · exact fun h => ⟨h.1, (hscorable _ h.1).1, rfl, h.2, rfl⟩
    · rw [List.length_mergeSort, ← map_record_of_selectedHits hselected, List.length_map]
    · rw [exactSearchSegmentsWithControl, exactSearch_of_valid hvalid hlimit, hhits]
      rfl

theorem IndexOf.length_nodes (hindex : IndexOf S index segments collectionId metric config) :
    index.nodes.length = (visibleRecords segments collectionId).length := by
  rw [← hindex.records, HnswIndex.records, List.length_map]

theorem IndexOf.nodup_ids (hindex : IndexOf S index segments collectionId metric config) :
    (index.records.map Record.id).Nodup := by
  rw [hindex.records]
  exact List.pairwise_map.mpr (sorted_visibleRecords.imp ne_of_lt)

theorem IndexOf.mem_of_finds (hindex : IndexOf S index segments collectionId metric config)
    {record : Record} (h : index.Finds S query record) :
    record ∈ visibleRecords segments collectionId := by
  obtain ⟨_, _, _, node, -, -, -, hnode, rfl⟩ := h
  rw [← hindex.records]
  exact List.mem_map_of_mem (List.mem_of_getElem? hnode)

/-- With room for all records a search answers with the part of the exact ranking
that it finds. -/
theorem IndexOf.search_eq (hindex : IndexOf S index segments collectionId metric config)
    (hroom : (visibleRecords segments collectionId).length ≤ config.efSearch)
    (hquery : index.validateQuery S query topK = .ok ()) {ranking : List (SearchHit S)}
    (hsorted : ranking.Pairwise (Before metric))
    (hranking : ∀ hit, hit ∈ ranking ↔ hit.record ∈ visibleRecords segments collectionId ∧
      Search.score query hit.record.vector metric = .ok hit.score)
    [DecidablePred (index.Finds S query)] :
    ∃ found, index.searchWithControl S query topK .unbounded = .ok found ∧
      found.map toSearchHit =
        (ranking.filter fun hit => index.Finds S query hit.record).take topK := by
  obtain ⟨found, hfound⟩ :=
    (search_ok_iff hindex).mpr ⟨QueryControl.check_unbounded, hquery⟩
  refine ⟨found, hfound, ?_⟩
  obtain ⟨⟨⟩, -, hfound⟩ := except_bind_ok.mp hfound
  obtain ⟨⟨⟩, -, hfound⟩ := except_bind_ok.mp hfound
  cases hentry : index.entryPoint with
  | none =>
    rw [hentry] at hfound
    cases hfound
    have hnothing : (ranking.filter fun hit => decide (index.Finds S query hit.record)) = [] := by
      rw [List.filter_eq_nil_iff]
      intro hit _ hfinds
      obtain ⟨entry, _, _, _, hsome, -⟩ := of_decide_eq_true hfinds
      rw [hentry] at hsome
      cases hsome
    rw [hnothing, List.take_nil, List.map_nil]
  | some entry =>
    rw [hentry] at hfound
    obtain ⟨landing, candidates, hits, hlanding, hcandidates, hhits, heq⟩ := searchFrom_eq hfound
    have hvalid := hindex.built.valid
    obtain ⟨other, hother, hlayer⟩ := hvalid.descend_ok
      (hindex.comparable_query hentry hquery) QueryControl.check_unbounded 1
      (hindex.built.entry entry hentry)
    rw [hlanding] at hother
    cases hother
    have hlayer := hlayer.mono (Nat.zero_le _)
    have hbeam : index.nodes.length ≤ index.config.efSearch := by
      rwa [hindex.length_nodes, hindex.sameConfig]
    obtain ⟨hdistinct, hreaches⟩ := hvalid.searchLayer_reaches hlayer hbeam hcandidates
    have hids := distinctIds_of_collectHits hindex.nodup_ids hdistinct
      (fun candidate hcandidate =>
        hvalid.inLayer_of_reachable hlayer ((hreaches candidate).mp hcandidate)) hhits
    rw [heq, hids.mergeSort_comparePosition]
    congr 1
    apply eq_of_pairwise_of_mem (hids.pairwise_before index.metric) ?_ fun _ _ => before_asymm
    · intro hit
      rw [List.mem_mergeSort, mem_hits_iff hhits, List.mem_filter, hranking, decide_eq_true_iff,
        hindex.sameMetric]
      have hfinds : (∃ candidate ∈ candidates, ∃ node, index.nodes[candidate]? = some node ∧
          node.record = hit.record) ↔ index.Finds S query hit.record := by
        constructor
        · rintro ⟨candidate, hcandidate, node, hnode, hrecord⟩
          exact ⟨entry, landing, candidate, node, hentry, hlanding, (hreaches candidate).mp hcandidate,
            hnode, hrecord⟩
        · rintro ⟨entry', landing', candidate, node, hentry', hlanding', hreach, hnode, hrecord⟩
          rw [hentry] at hentry'
          cases hentry'
          rw [hlanding] at hlanding'
          cases hlanding'
          exact ⟨candidate, (hreaches candidate).mpr hreach, node, hnode, hrecord⟩
      rw [hfinds]
      constructor
      · exact fun h => ⟨⟨hindex.mem_of_finds h.1, h.2⟩, h.1⟩
      · exact fun h => ⟨h.2, h.1.2⟩
    · rw [hindex.sameMetric]
      exact hsorted.filter _

/-- In a complete graph every record is found. -/
theorem IndexOf.finds_of_complete (hindex : IndexOf S index segments collectionId metric config)
    (hquery : index.validateQuery S query topK = .ok ())
    (hcomplete : index.Complete 0 index.nodes.length) {record : Record}
    (hrecord : record ∈ visibleRecords segments collectionId) : index.Finds S query record := by
  rw [← hindex.records] at hrecord
  obtain ⟨node, hnode, rfl⟩ := List.mem_map.mp hrecord
  obtain ⟨position, hposition⟩ := List.mem_iff_getElem?.mp hnode
  have hlayer : index.InLayer 0 position := ⟨node, hposition, Nat.zero_le _⟩
  cases hentry : index.entryPoint with
  | none =>
    rw [hindex.built.empty hentry] at hnode
    cases hnode
  | some entry =>
    obtain ⟨landing, hlanding, hlandingLayer⟩ := hindex.built.valid.descend_ok
      (hindex.comparable_query hentry hquery) QueryControl.check_unbounded 1
      (hindex.built.entry entry hentry)
    have hlandingLayer := hlandingLayer.mono (Nat.zero_le _)
    refine ⟨entry, landing, position, node, hentry, hlanding, ?_, hposition, rfl⟩
    by_cases hsame : landing = position
    · rw [hsame]
      exact Relation.ReflTransGen.refl
    · exact Relation.ReflTransGen.single
        (hcomplete landing position hsame hlandingLayer.lt hlayer.lt hlandingLayer hlayer)

open Classical in
/-- With room for all records in the beams a search answers with the part of the
exact ranking that layer 0 leads to, and with all of it when the lists of
neighbours have room for all other records too. -/
theorem search_of_room (hbuild : build S segments collectionId metric config = .ok index)
    (hconstruction : (visibleRecords segments collectionId).length ≤ config.efConstruction)
    (hsearch : (visibleRecords segments collectionId).length ≤ config.efSearch)
    (hquery : index.validateQuery S query topK = .ok ()) :
    ∃ (ranking : List (SearchHit S)) (found : List (HnswHit S)),
      (∀ limit, 0 < limit → exactSearchSegmentsWithControl S segments collectionId query metric limit
        .unbounded = .ok (ranking.take limit)) ∧
      index.searchWithControl S query topK .unbounded = .ok found ∧
      found.map toSearchHit =
        (ranking.filter fun hit => decide (index.Finds S query hit.record)).take topK ∧
      ((visibleRecords segments collectionId).length ≤ config.m + 1 →
        (∀ record ∈ visibleRecords segments collectionId, index.Finds S query record) ∧
          found.map toSearchHit = ranking.take topK) := by
  have hindex := indexOf_of_build hbuild
  obtain ⟨ranking, hsorted, hranking, -, hexact⟩ := hindex.ranking hquery
  obtain ⟨found, hfound, heq⟩ := hindex.search_eq hsearch hquery hsorted hranking
  refine ⟨ranking, found, hexact, hfound, heq, fun hneighbors => ?_⟩
  have hfinds : ∀ record ∈ visibleRecords segments collectionId, index.Finds S query record :=
    fun record hrecord => hindex.finds_of_complete hquery
      (complete_of_build hbuild hneighbors hconstruction 0) hrecord
  have hall : (ranking.filter fun hit => decide (index.Finds S query hit.record)) = ranking := by
    rw [List.filter_eq_self]
    exact fun hit hhit => decide_eq_true (hfinds hit.record ((hranking hit).mp hhit).1)
  refine ⟨hfinds, ?_⟩
  rw [heq, hall]

/-! ### Three records on one layer -/

theorem sortByDistance_pair {first second : ℕ} {firstRank secondRank : Rank S}
    (hfirst : index.rank query first = .ok firstRank)
    (hsecond : index.rank query second = .ok secondRank) :
    sortByDistance S index query [first, second] =
      .ok (if (compareRank firstRank secondRank).isLE then [first, second] else [second, first]) := by
  have hranked : ranked S index query [first, second] =
      .ok [(firstRank, first), (secondRank, second)] := by
    simp only [ranked, List.mapM_cons, List.mapM_nil, hfirst, hsecond, except_ok_bind]
    rfl
  rw [sortByDistance, if_neg (by simp), hranked, except_ok_bind]
  have hsort : [(firstRank, first), (secondRank, second)].mergeSort
      (fun left right => (compareRank left.1 right.1).isLE) =
      if (compareRank firstRank secondRank).isLE then
        [(firstRank, first), (secondRank, second)] else [(secondRank, second), (firstRank, first)] := by
    simp [List.mergeSort, List.merge]
  rw [hsort]
  split <;> rfl

def unitQuery : List F32 := [⟨0x3f800000⟩]

/-- The vector `[0.0]`. -/
def zeroVector : Vector := ⟨[⟨0⟩], Vector.finite_zero⟩

/-- The records lie on layer 0 only. The first and the last have the vector `[1.0]`. -/
def starRecords : List Record :=
  [⟨.unsigned 1, pageVector, .empty, 1⟩, ⟨.unsigned 2, zeroVector, .empty, 2⟩,
    ⟨.unsigned 3, pageVector, .empty, 3⟩]

def starSegment (count : ℕ) : Segment := ⟨1, pageCollection, 1, 3, starRecords.take count, []⟩

def starGraph (edges : List (List ℕ)) : HnswIndex :=
  ⟨pageCollection, .dot, ⟨1, 3, 3⟩, some 1,
    List.zipWith (fun record neighbors => ⟨record, 0, [neighbors]⟩) starRecords edges, some 0, 0⟩

theorem visibleRecords_star (count : ℕ) :
    visibleRecords [starSegment count] pageCollection = starRecords.take count := by
  have hsorted : starRecords.Pairwise fun left right => left.id < right.id := by decide
  exact @visibleRecords_of_segment (starSegment count)
    (hsorted.sublist (List.take_sublist ..)) rfl

theorem build_star {count : ℕ} (hcount : 0 < count)
    (h : (starRecords.take count).foldlM (insert ℝ)
      ⟨pageCollection, .dot, ⟨1, 3, 3⟩, some 1, [], none, 0⟩ = .ok index) :
    build ℝ [starSegment count] pageCollection .dot ⟨1, 3, 3⟩ = .ok index := by
  have hdimension : ((starRecords.take count).head?.map fun record => record.vector.length) =
      some 1 := by
    obtain ⟨rest, rfl⟩ := Nat.exists_eq_succ_of_ne_zero hcount.ne'
    rfl
  refine except_bind_ok.mpr ⟨⟨1, 3, 3⟩, rfl, ?_⟩
  rw [mergeSort_visibleRecords, visibleRecords_star]
  simp only [hdimension]
  refine except_bind_ok.mpr ⟨(), forM_checkRecord_ok_iff.mpr ?_, h⟩
  intro record hrecord
  refine ⟨?_, nofun⟩
  have hall : ∀ record ∈ starRecords, record.vector.values.length = 1 := by decide
  exact hall record (List.mem_of_mem_take hrecord)

/-- Of the two vectors the unit vector is nearer to itself. -/
theorem compareRank_unit (near far : RecordId) :
    compareRank ((ScoreArith.neg (dot unitQuery unitQuery : ℝ), near) : Rank ℝ)
      (ScoreArith.neg (dot unitQuery [⟨0⟩] : ℝ), far) = .lt := by
  have hone : (⟨0x3f800000⟩ : F32).toRat = 1 := by
    have hbits : (0x3f800000 : UInt32).toNat = 0x3f800000 := rfl
    norm_num [F32.toRat, hbits]
  have hzero : (⟨0⟩ : F32).toRat = 0 := by norm_num [F32.toRat]
  have hlt : (-(0 + ((⟨0x3f800000⟩ : F32).toRat : ℝ) * ((⟨0x3f800000⟩ : F32).toRat : ℝ)) : ℝ) <
      -(0 + ((⟨0x3f800000⟩ : F32).toRat : ℝ) * ((⟨0⟩ : F32).toRat : ℝ)) := by
    rw [hone, hzero]
    norm_num
  have hcompare := compare_lt_iff_lt.mpr hlt
  exact Ordering.then_eq_lt.mpr (.inl hcompare)

theorem sortByDistance_unit {near far : ℕ} {nearId farId : RecordId}
    (hnear : index.rank unitQuery near =
      .ok ((ScoreArith.neg (dot unitQuery unitQuery : ℝ), nearId) : Rank ℝ))
    (hfar : index.rank unitQuery far =
      .ok ((ScoreArith.neg (dot unitQuery [⟨0⟩] : ℝ), farId) : Rank ℝ)) :
    sortByDistance ℝ index unitQuery [near, far] = .ok [near, far] ∧
      sortByDistance ℝ index unitQuery [far, near] = .ok [near, far] := by
  have hlt := compareRank_unit nearId farId
  have hgt : ¬(compareRank ((ScoreArith.neg (dot unitQuery [⟨0⟩] : ℝ), farId) : Rank ℝ)
      (ScoreArith.neg (dot unitQuery unitQuery : ℝ), nearId)).isLE := by
    have htrans : Std.TransCmp (compareRank : Rank ℝ → Rank ℝ → Ordering) :=
      inferInstanceAs (Std.TransCmp (compareLex (compareOn Prod.fst) (compareOn Prod.snd)))
    rw [Std.OrientedCmp.gt_iff_lt.mpr hlt]
    decide
  constructor
  · rw [sortByDistance_pair hnear hfar, hlt]
    rfl
  · rw [sortByDistance_pair hfar hnear, if_neg hgt]

theorem searchLayer_star :
    searchLayerControlled ℝ (starGraph [[1], [0], []]) unitQuery 0 3 0 .unbounded = .ok [0, 1] := by
  have hsort := (@sortByDistance_unit (starGraph [[1], [0], []]) 0 1 _ _ rfl rfl).1
  have hvisit : visitNeighbor ℝ (starGraph [[1], [0], []]) unitQuery 3 ⟨[0], [], [0]⟩ 1 =
      .ok ⟨[1, 0], [1], [0, 1]⟩ := by
    rw [visitNeighbor, if_neg (by simp)]
    show sortByDistance ℝ _ _ [0, 1] >>= _ = _
    rw [hsort]
    rfl
  have hloop : searchLayerControlled ℝ (starGraph [[1], [0], []]) unitQuery 0 3 0 .unbounded =
      (visitNeighbor ℝ (starGraph [[1], [0], []]) unitQuery 3 ⟨[0], [], [0]⟩ 1 >>=
        searchLayerLoop ℝ (starGraph [[1], [0], []]) unitQuery 3 0 .unbounded 3) := rfl
  rw [hloop, hvisit]
  rfl

theorem linkLayer_star : linkLayer ℝ 2 unitQuery (starGraph [[1], [0], []], 0) 0 =
    .ok (starGraph [[2], [0], [0]], 0) := by
  have hsort := (@sortByDistance_unit (starGraph [[1], [0], []]) 0 1 _ _ rfl rfl).1
  have hselect : selectNeighbors ℝ (starGraph [[1], [0], []]) unitQuery [0, 1] 1 = .ok [0] :=
    except_bind_ok.mpr ⟨[0, 1], hsort, rfl⟩
  have hcut := (@sortByDistance_unit (starGraph [[1], [0], [0]]) 2 1 _ _ rfl rfl).2
  have hconnect : connect ℝ (starGraph [[1], [0], [0]]) 2 0 0 = .ok (starGraph [[2], [0], [0]]) :=
    except_bind_ok.mpr ⟨_, rfl, except_bind_ok.mpr ⟨[1], rfl, except_bind_ok.mpr
      ⟨[2], except_bind_ok.mpr ⟨[2, 1], hcut, rfl⟩, rfl⟩⟩⟩
  have hall : [0].foldlM (fun index existing => connect ℝ index 2 0 existing)
      (starGraph [[1], [0], [0]]) = .ok (starGraph [[2], [0], [0]]) :=
    except_bind_ok.mpr ⟨_, hconnect, rfl⟩
  exact except_bind_ok.mpr ⟨[0, 1], searchLayer_star, except_bind_ok.mpr ⟨[0], hselect,
    except_bind_ok.mpr ⟨[], rfl, except_bind_ok.mpr ⟨_, hall, rfl⟩⟩⟩⟩

theorem insert_third : insert ℝ (starGraph [[1], [0]]) ⟨.unsigned 3, pageVector, .empty, 3⟩ =
    .ok (starGraph [[2], [0], [0]]) :=
  except_bind_ok.mpr ⟨0, rfl, except_bind_ok.mpr ⟨(starGraph [[2], [0], [0]], 0),
    except_bind_ok.mpr ⟨_, linkLayer_star, rfl⟩, rfl⟩⟩

theorem build_third : build ℝ [starSegment 3] pageCollection .dot ⟨1, 3, 3⟩ =
    .ok (starGraph [[2], [0], [0]]) :=
  build_star (by decide) (except_bind_ok.mpr ⟨starGraph [[]], rfl,
    except_bind_ok.mpr ⟨starGraph [[1], [0]], rfl, except_bind_ok.mpr ⟨_, insert_third, rfl⟩⟩⟩)

theorem build_second : build ℝ [starSegment 2] pageCollection .dot ⟨1, 3, 3⟩ =
    .ok (starGraph [[1], [0]]) :=
  build_star (by decide) (except_bind_ok.mpr ⟨starGraph [[]], rfl,
    except_bind_ok.mpr ⟨starGraph [[1], [0]], rfl, rfl⟩⟩)

/-- Two records fit into lists of one neighbour. -/
theorem search_of_room_sample : ∃ (ranking : List (SearchHit ℝ)) (found : List (HnswHit ℝ)),
    exactSearchSegmentsWithControl ℝ [starSegment 2] pageCollection unitQuery .dot 2 .unbounded =
      .ok (ranking.take 2) ∧
    (starGraph [[1], [0]]).searchWithControl ℝ unitQuery 2 .unbounded = .ok found ∧
    found.map toSearchHit = ranking.take 2 := by
  have hlength : (visibleRecords [starSegment 2] pageCollection).length = 2 := by
    rw [visibleRecords_star]
    rfl
  obtain ⟨ranking, found, hexact, hfound, -, hall⟩ := search_of_room build_second
    (by rw [hlength]; decide) (by rw [hlength]; decide)
    (show validateQuery ℝ (starGraph [[1], [0]]) unitQuery 2 = .ok () from rfl)
  exact ⟨ranking, found, hexact 2 (by decide), hfound, (hall (by rw [hlength])).2⟩

/-- The edges between the first and the last record lead to no other. -/
theorem reachable_star {position : ℕ} (h : (starGraph [[2], [0], [0]]).Reachable 0 0 position) :
    position = 0 ∨ position = 2 := by
  induction h with
  | refl => exact .inl rfl
  | tail _ hedge ih =>
    obtain ⟨neighbors, hneighbors, htarget⟩ := hedge
    rcases ih with rfl | rfl
    · cases hneighbors
      exact .inr (List.mem_singleton.mp htarget)
    · cases hneighbors
      exact .inl (List.mem_singleton.mp htarget)

/-- Three records do not: the second loses its only incoming edge to the third. -/
theorem search_misses_record : ∃ (found : List (HnswHit ℝ)) (exact : List (SearchHit ℝ)),
    (visibleRecords [starSegment 3] pageCollection).length = 3 ∧
    build ℝ [starSegment 3] pageCollection .dot ⟨1, 3, 3⟩ = .ok (starGraph [[2], [0], [0]]) ∧
    (starGraph [[2], [0], [0]]).validateQuery ℝ unitQuery 3 = .ok () ∧
    (starGraph [[2], [0], [0]]).searchWithControl ℝ unitQuery 3 .unbounded = .ok found ∧
    exactSearchSegmentsWithControl ℝ [starSegment 3] pageCollection unitQuery .dot 3 .unbounded =
      .ok exact ∧
    found.map (fun hit => hit.record.id) ≠ exact.map (fun hit => hit.record.id) := by
  classical
  have hlength : (visibleRecords [starSegment 3] pageCollection).length = 3 := by
    rw [visibleRecords_star]
    rfl
  have hquery : (starGraph [[2], [0], [0]]).validateQuery ℝ unitQuery 3 = .ok () := rfl
  have hindex := indexOf_of_build build_third
  obtain ⟨ranking, hsorted, hranking, hcount, hexact⟩ := hindex.ranking hquery
  obtain ⟨found, hfound, heq⟩ := hindex.search_eq (by rw [hlength]) hquery hsorted hranking
  refine ⟨found, ranking.take 3, hlength, build_third, hquery, hfound, hexact 3 (by decide), ?_⟩
  intro hids
  have hall : ranking.take 3 = ranking := List.take_of_length_le (by rw [hcount, hlength])
  have hsecond : (⟨⟨.unsigned 2, zeroVector, .empty, 2⟩, dot unitQuery zeroVector.values⟩ :
      SearchHit ℝ) ∈ ranking := by
    rw [hranking, visibleRecords_star]
    exact ⟨List.mem_cons_of_mem _ (List.mem_cons_self ..), rfl⟩
  have hid : RecordId.unsigned 2 ∈ found.map fun hit => hit.record.id := by
    rw [hids, hall]
    exact List.mem_map.mpr ⟨_, hsecond, rfl⟩
  obtain ⟨hit, hhit, hhitId⟩ := List.mem_map.mp hid
  have hkept := List.mem_map_of_mem (f := toSearchHit) hhit
  rw [heq] at hkept
  obtain ⟨entry, landing, position, node, hentry, hlanding, hreach, hnode, hrecord⟩ :=
    of_decide_eq_true (List.mem_filter.mp (List.mem_of_mem_take hkept)).2
  cases hentry
  cases hlanding
  have hnodeId : node.record.id = RecordId.unsigned 2 := by
    rw [hrecord]
    exact hhitId
  rcases reachable_star hreach with rfl | rfl
  · cases hnode
    cases hnodeId
  · cases hnode
    cases hnodeId

end HnswIndex

end Ketebe
