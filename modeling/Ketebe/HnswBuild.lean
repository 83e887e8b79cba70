import Ketebe.HnswGraph

/-!
Building a graph. Linking a new node only rewires edges within a layer, so
every graph that is built is well formed, holds the visible records in the
order of their ids and answers every valid query.
-/
namespace Ketebe

open Lib.ByteCodec

namespace HnswIndex

/-- Only the edges differ. -/
structure Rewires (index index' : HnswIndex) : Prop where
  nodes : index'.nodes.map (fun node => (node.record, node.level)) =
    index.nodes.map fun node => (node.record, node.level)
  rest : index' = { index with nodes := index'.nodes }

namespace Rewires

theorem refl (index : HnswIndex) : Rewires index index := ⟨rfl, rfl⟩

theorem trans {index index' index'' : HnswIndex} (h : Rewires index index')
    (h' : Rewires index' index'') : Rewires index index'' := by
  refine ⟨h'.nodes.trans h.nodes, ?_⟩
  rw [h'.rest, h.rest]

theorem inLayer_iff {index index' : HnswIndex} (h : Rewires index index') {layer position : ℕ} :
    index'.InLayer layer position ↔ index.InLayer layer position := by
  have hiff (index : HnswIndex) : index.InLayer layer position ↔ ∃ entry,
      (index.nodes.map fun node => (node.record, node.level))[position]? = some entry ∧
        layer ≤ entry.2 := by
    simp only [InLayer, List.getElem?_map, Option.map_eq_some_iff]
    constructor
    · rintro ⟨node, hnode, hlevel⟩
      exact ⟨_, ⟨node, hnode, rfl⟩, hlevel⟩
    · rintro ⟨_, ⟨node, hnode, rfl⟩, hlevel⟩
      exact ⟨node, hnode, hlevel⟩
  rw [hiff index', hiff index, h.nodes]

theorem records {index index' : HnswIndex} (h : Rewires index index') :
    index'.records = index.records := by
  have hrecords := congrArg (List.map Prod.fst) h.nodes
  simpa only [HnswIndex.records, List.map_map, Function.comp_def] using hrecords

theorem length {index index' : HnswIndex} (h : Rewires index index') :
    index'.nodes.length = index.nodes.length := by
  simpa using congrArg List.length h.nodes

theorem metric {index index' : HnswIndex} (h : Rewires index index') :
    index'.metric = index.metric := by
  rw [h.rest]

end Rewires

theorem rewires_setNeighbors (index : HnswIndex) (position layer : ℕ) (neighbors : List ℕ) :
    Rewires index (index.setNeighbors position layer neighbors) := by
  refine ⟨?_, rfl⟩
  apply List.ext_getElem?
  intro other
  simp only [setNeighbors, List.getElem?_map, List.getElem?_modify, Option.map_eq_map]
  cases index.nodes[other]? with
  | none => rfl
  | some node =>
    simp only [Option.map_some]
    split <;> rfl

theorem mem_setNeighbors {index : HnswIndex} {position layer : ℕ} {neighbors : List ℕ}
    {node : HnswNode} (h : node ∈ (index.setNeighbors position layer neighbors).nodes) :
    node ∈ index.nodes ∨ ∃ old ∈ index.nodes,
      node = { old with neighbors := old.neighbors.set layer neighbors } := by
  obtain ⟨other, hother⟩ := List.mem_iff_getElem?.mp h
  simp only [setNeighbors, List.getElem?_modify, Option.map_eq_map,
    Option.map_eq_some_iff] at hother
  obtain ⟨old, hold, rfl⟩ := hother
  have hmem := List.mem_of_getElem? hold
  split
  · exact Or.inr ⟨old, hmem, rfl⟩
  · exact Or.inl hmem

section Build

variable {S : Type} [ScoreArith S] {index : HnswIndex} {dimension layer : ℕ}

theorem Valid.setNeighbors (hvalid : index.Valid S dimension) {neighbors : List ℕ}
    (hneighbors : ∀ neighbor ∈ neighbors, index.InLayer layer neighbor) (position : ℕ) :
    (index.setNeighbors position layer neighbors).Valid S dimension := by
  have hrewires := rewires_setNeighbors index position layer neighbors
  refine ⟨fun node hnode => ?_, fun node hnode => ?_, fun node hnode other found hfound => ?_⟩
  · rw [hrewires.metric]
    rcases mem_setNeighbors hnode with hold | ⟨old, hold, rfl⟩
    · exact hvalid.comparable node hold
    · exact hvalid.comparable old hold
  · rcases mem_setNeighbors hnode with hold | ⟨old, hold, rfl⟩
    · exact hvalid.layers node hold
    · rw [List.length_set]
      exact hvalid.layers old hold
  · intro neighbor hneighbor
    rw [hrewires.inLayer_iff]
    rcases mem_setNeighbors hnode with hold | ⟨old, hold, rfl⟩
    · exact hvalid.edges node hold other found hfound neighbor hneighbor
    · simp only [List.getElem?_set] at hfound
      split at hfound
      · rename_i hsame
        split at hfound
        · cases hfound
          exact hsame ▸ hneighbors neighbor hneighbor
        · cases hfound
      · exact hvalid.edges old hold other found hfound neighbor hneighbor

theorem mem_of_mem_dedup_take {values : List ℕ} {limit value : ℕ}
    (h : value ∈ (Lib.SortedSet.dedupConsecutive values).take limit) : value ∈ values :=
  Lib.SortedSet.mem_dedupConsecutive.mp (List.mem_of_mem_take h)

theorem Valid.selectNeighbors_ok (hvalid : index.Valid S dimension) {query : List F32}
    (hquery : Comparable S index.metric dimension query) {candidates : List ℕ}
    (h : ∀ candidate ∈ candidates, index.InLayer layer candidate) (limit : ℕ) : ∃ selected,
      selectNeighbors S index query candidates limit = .ok selected ∧
        ∀ position ∈ selected, index.InLayer layer position := by
  obtain ⟨sorted, hsorted, hperm⟩ := hvalid.sortByDistance_ok hquery h
  refine ⟨_, by rw [selectNeighbors, hsorted]; rfl, fun position hposition => ?_⟩
  exact h position (hperm.mem_iff.mp (mem_of_mem_dedup_take hposition))

theorem Valid.connect_ok (hvalid : index.Valid S dimension) {newIndex existing : ℕ}
    (hnew : index.InLayer layer newIndex) (hexisting : index.InLayer layer existing) :
    ∃ index', connect S index newIndex layer existing = .ok index' ∧
      index'.Valid S dimension ∧ Rewires index index' := by
  obtain ⟨neighbors, hneighbors, hlayer⟩ := hvalid.getNeighbors_ok hexisting
  obtain ⟨node, hnode, hlevel⟩ := hexisting
  have hcandidates : ∀ candidate ∈
      (if newIndex ∈ neighbors then neighbors else neighbors ++ [newIndex]),
        index.InLayer layer candidate := by
    split
    · exact hlayer
    · intro candidate hcandidate
      rcases List.mem_append.mp hcandidate with hold | hsingle
      · exact hlayer candidate hold
      · rwa [List.mem_singleton.mp hsingle]
  obtain ⟨selected, hselected, hwithin⟩ := hvalid.selectNeighbors_ok
    (hvalid.comparable node (List.mem_of_getElem? hnode)) hcandidates index.config.m
  refine ⟨_, ?_, hvalid.setNeighbors hwithin existing, rewires_setNeighbors ..⟩
  simp only [connect, getNode, hnode, except_ok_bind, if_neg (not_lt.mpr hlevel), hneighbors,
    hselected]
  rfl

theorem Valid.connectAll_ok (hvalid : index.Valid S dimension) {newIndex : ℕ}
    {selected : List ℕ} (hnew : index.InLayer layer newIndex)
    (hselected : ∀ position ∈ selected, index.InLayer layer position) : ∃ index',
      selected.foldlM (fun index existing => connect S index newIndex layer existing) index =
        .ok index' ∧ index'.Valid S dimension ∧ Rewires index index' := by
  induction selected generalizing index with
  | nil => exact ⟨index, rfl, hvalid, Rewires.refl index⟩
  | cons head rest ih =>
    obtain ⟨middle, hmiddle, hvalid', hrewires⟩ :=
      hvalid.connect_ok hnew (hselected head (List.mem_cons_self ..))
    obtain ⟨last, hlast, hvalid'', hrewires'⟩ := ih hvalid' (hrewires.inLayer_iff.mpr hnew)
      fun position hposition =>
        hrewires.inLayer_iff.mpr (hselected position (List.mem_cons_of_mem _ hposition))
    refine ⟨last, ?_, hvalid'', hrewires.trans hrewires'⟩
    rw [List.foldlM_cons, hmiddle, except_ok_bind, hlast]

variable {query : List F32}

theorem Valid.linkLayer_ok (hvalid : index.Valid S dimension)
    (hquery : Comparable S index.metric dimension query) {newIndex current : ℕ}
    (hnew : index.InLayer layer newIndex) (hcurrent : index.InLayer layer current) :
    ∃ index' current', linkLayer S newIndex query (index, current) layer =
      .ok (index', current') ∧ index'.Valid S dimension ∧ Rewires index index' ∧
        index'.InLayer layer current' := by
  obtain ⟨candidates, hcandidates, hlayer⟩ := hvalid.searchLayer_ok hquery
    QueryControl.check_unbounded index.config.efConstruction hcurrent
  obtain ⟨selected, hselected, hwithin⟩ :=
    hvalid.selectNeighbors_ok hquery hlayer index.config.m
  obtain ⟨own, hown, -⟩ := hvalid.getNeighbors_ok hnew
  have hrewires := rewires_setNeighbors index newIndex layer selected
  obtain ⟨linked, hlinked, hvalid', hrewires'⟩ :=
    (hvalid.setNeighbors hwithin newIndex).connectAll_ok (hrewires.inLayer_iff.mpr hnew)
      fun position hposition => hrewires.inLayer_iff.mpr (hwithin position hposition)
  refine ⟨linked, selected.headD current, ?_, hvalid', hrewires.trans hrewires', ?_⟩
  · simp only [linkLayer, hcandidates, hselected, hown, hlinked, except_ok_bind]
    rfl
  · rw [(hrewires.trans hrewires').inLayer_iff]
    cases selected with
    | nil => exact hcurrent
    | cons head rest => exact hwithin head (List.mem_cons_self ..)

theorem Valid.linkLayers_ok (hvalid : index.Valid S dimension)
    (hquery : Comparable S index.metric dimension query) (high : ℕ) {newIndex current : ℕ}
    (hnew : index.InLayer high newIndex) (hcurrent : index.InLayer high current) :
    ∃ index' current', (layersDown 0 high).foldlM (linkLayer S newIndex query) (index, current) =
      .ok (index', current') ∧ index'.Valid S dimension ∧ Rewires index index' := by
  induction high generalizing index current with
  | zero =>
    obtain ⟨linked, last, hlinked, hvalid', hrewires, -⟩ :=
      hvalid.linkLayer_ok hquery hnew hcurrent
    refine ⟨linked, last, ?_, hvalid', hrewires⟩
    simp only [layersDown, Nat.zero_add, Nat.sub_zero, List.range'_one, List.reverse_singleton,
      List.foldlM_cons, List.foldlM_nil, hlinked, except_ok_bind]
    rfl
  | succ high ih =>
    obtain ⟨middle, next, hmiddle, hvalid', hrewires, hnext⟩ :=
      hvalid.linkLayer_ok hquery hnew hcurrent
    obtain ⟨linked, last, hlinked, hvalid'', hrewires'⟩ := ih hvalid'
      (by rwa [hrewires.metric]) ((hrewires.inLayer_iff.mpr hnew).mono (Nat.le_succ high))
      (hnext.mono (Nat.le_succ high))
    refine ⟨linked, last, ?_, hvalid'', hrewires.trans hrewires'⟩
    rw [layersDown_succ (Nat.zero_le _), List.foldlM_cons, hmiddle, except_ok_bind, hlinked]

/-- The state of the graph between two insertions. -/
structure Built (S : Type) [ScoreArith S] (index : HnswIndex) (dimension : ℕ) : Prop where
  valid : index.Valid S dimension
  empty : index.entryPoint = none → index.nodes = []
  entry : ∀ entry, index.entryPoint = some entry → index.InLayer index.maxLevel entry

/-- Everything that insertions leave alone. -/
structure SameSettings (index index' : HnswIndex) : Prop where
  collectionId : index'.collectionId = index.collectionId
  metric : index'.metric = index.metric
  config : index'.config = index.config
  dimension : index'.dimension = index.dimension

theorem InLayer.withNode {position : ℕ} (h : index.InLayer layer position) (record : Record) :
    (index.withNode record).InLayer layer position := by
  obtain ⟨node, hnode, hlevel⟩ := h
  refine ⟨node, ?_, hlevel⟩
  rw [HnswIndex.withNode, List.getElem?_append_left (List.getElem?_eq_some_iff.mp hnode).1, hnode]

theorem inLayer_withNode_new (index : HnswIndex) (record : Record) :
    (index.withNode record).InLayer (deterministicLevel record.id) index.nodes.length := by
  refine ⟨⟨record, deterministicLevel record.id,
    List.replicate (deterministicLevel record.id + 1) []⟩, ?_, le_refl _⟩
  exact List.getElem?_concat_length

theorem Valid.withNode (hvalid : index.Valid S dimension) {record : Record}
    (hrecord : Comparable S index.metric dimension record.vector.values) :
    (index.withNode record).Valid S dimension := by
  refine ⟨fun node hnode => ?_, fun node hnode => ?_, fun node hnode other found hfound => ?_⟩
  · rcases List.mem_append.mp hnode with hold | hnew
    · exact hvalid.comparable node hold
    · rw [List.mem_singleton.mp hnew]
      exact hrecord
  · rcases List.mem_append.mp hnode with hold | hnew
    · exact hvalid.layers node hold
    · rw [List.mem_singleton.mp hnew, List.length_replicate]
  · intro neighbor hneighbor
    rcases List.mem_append.mp hnode with hold | hnew
    · exact (hvalid.edges node hold other found hfound neighbor hneighbor).withNode record
    · rw [List.mem_singleton.mp hnew] at hfound
      have hempty := (List.mem_replicate.mp (List.mem_of_getElem? hfound)).2
      rw [hempty] at hneighbor
      cases hneighbor

theorem Built.insert_ok (hbuilt : index.Built S dimension) {record : Record}
    (hrecord : Comparable S index.metric dimension record.vector.values) : ∃ index',
      insert S index record = .ok index' ∧ index'.Built S dimension ∧
        SameSettings index index' ∧ index'.records = index.records ++ [record] := by
  have hvalid := hbuilt.valid.withNode hrecord
  have hnew := inLayer_withNode_new index record
  have hrecords : (index.withNode record).records = index.records ++ [record] := by
    rw [records, withNode, List.map_append, records]
    rfl
  cases hentry : index.entryPoint with
  | none =>
    refine ⟨{ index.withNode record with
      entryPoint := some index.nodes.length, maxLevel := deterministicLevel record.id }, ?_,
      ⟨⟨hvalid.comparable, hvalid.layers, hvalid.edges⟩, nofun, ?_⟩, ⟨rfl, rfl, rfl, rfl⟩, hrecords⟩
    · simp only [insert, hentry]
      rfl
    · rintro _ ⟨⟩
      exact hnew
  | some entry =>
    have hentryLayer := (hbuilt.entry entry hentry).withNode record
    obtain ⟨current, hcurrent, hlayer⟩ := hvalid.descend_ok hrecord
      QueryControl.check_unbounded (deterministicLevel record.id + 1) hentryLayer
    obtain ⟨linked, last, hlinked, hvalid', hrewires⟩ := hvalid.linkLayers_ok hrecord
      (min (deterministicLevel record.id) index.maxLevel)
      (hnew.mono (min_le_left ..)) (hlayer.mono (by omega))
    have hinsert : insert S index record = .ok (if index.maxLevel < deterministicLevel record.id then
        { linked with
          entryPoint := some index.nodes.length, maxLevel := deterministicLevel record.id }
        else linked) := by
      simp only [insert, hentry, insertFrom, hcurrent, hlinked, except_ok_bind]
      rfl
    have hsettings : SameSettings index linked := by
      rw [hrewires.rest]
      exact ⟨rfl, rfl, rfl, rfl⟩
    by_cases hhigher : index.maxLevel < deterministicLevel record.id
    · rw [if_pos hhigher] at hinsert
      refine ⟨_, hinsert, ⟨⟨hvalid'.comparable, hvalid'.layers, hvalid'.edges⟩, nofun, ?_⟩,
        ⟨hsettings.collectionId, hsettings.metric, hsettings.config, hsettings.dimension⟩,
        hrewires.records.trans hrecords⟩
      rintro _ ⟨⟩
      exact hrewires.inLayer_iff.mpr hnew
    · refine ⟨linked, by rw [hinsert, if_neg hhigher], ⟨hvalid', ?_, ?_⟩, hsettings,
        hrewires.records.trans hrecords⟩
      · intro hnone
        rw [hrewires.rest] at hnone
        cases hentry.symm.trans hnone
      · intro other hother
        rw [hrewires.inLayer_iff]
        rw [hrewires.rest] at hother ⊢
        cases hentry.symm.trans hother
        exact hentryLayer

theorem empty_built (collectionId : CollectionId) (metric : DistanceMetric) (config : HnswConfig)
    (head : Option ℕ) (dimension : ℕ) :
    Built S (⟨collectionId, metric, config, head, [], none, 0⟩ : HnswIndex) dimension :=
  ⟨⟨nofun, nofun, nofun⟩, fun _ => rfl, nofun⟩

theorem SameSettings.trans {index index' index'' : HnswIndex} (h : SameSettings index index')
    (h' : SameSettings index' index'') : SameSettings index index'' :=
  ⟨h'.1.trans h.1, h'.2.trans h.2, h'.3.trans h.3, h'.4.trans h.4⟩

theorem Built.insertAll_ok (hbuilt : index.Built S dimension) {records : List Record}
    (hrecords : ∀ record ∈ records, Comparable S index.metric dimension record.vector.values) :
    ∃ index', records.foldlM (insert S) index = .ok index' ∧ index'.Built S dimension ∧
      SameSettings index index' ∧ index'.records = index.records ++ records := by
  induction records generalizing index with
  | nil =>
    exact ⟨index, rfl, hbuilt, ⟨rfl, rfl, rfl, rfl⟩, (List.append_nil _).symm⟩
  | cons head rest ih =>
    obtain ⟨middle, hmiddle, hbuilt', hsame, hhead⟩ :=
      hbuilt.insert_ok (hrecords head (List.mem_cons_self ..))
    obtain ⟨last, hlast, hbuilt'', hsame', hrest⟩ := ih hbuilt' fun record hrecord => by
      rw [hsame.metric]
      exact hrecords record (List.mem_cons_of_mem _ hrecord)
    refine ⟨last, ?_, hbuilt'', hsame.trans hsame', ?_⟩
    · rw [List.foldlM_cons, hmiddle, except_ok_bind, hlast]
    · rw [hrest, hhead, List.append_assoc, List.singleton_append]

theorem checkRecord_ok_iff {metric : DistanceMetric} {record : Record} :
    checkRecord S metric dimension record = .ok () ↔
      Comparable S metric dimension record.vector.values := by
  unfold checkRecord Comparable
  split
  · rename_i hlen
    exact ⟨nofun, fun h => absurd h.1 hlen⟩
  · rename_i hlen
    split
    · rename_i hzero
      exact ⟨nofun, fun h => absurd hzero.2 (h.2 hzero.1)⟩
    · rename_i hzero
      refine ⟨fun _ => ⟨not_not.mp hlen, fun hmetric hnorm => hzero ⟨hmetric, hnorm⟩⟩, fun _ => rfl⟩

theorem forM_checkRecord_ok_iff {metric : DistanceMetric} {records : List Record} :
    records.forM (checkRecord S metric dimension) = .ok () ↔
      ∀ record ∈ records, Comparable S metric dimension record.vector.values := by
  induction records with
  | nil => exact ⟨fun _ => nofun, fun _ => rfl⟩
  | cons head rest ih =>
    rw [List.forall_mem_cons, ← checkRecord_ok_iff, ← ih]
    change (checkRecord S metric dimension head >>= fun _ => rest.forM _) = _ ↔ _
    rw [except_bind_ok]
    constructor
    · rintro ⟨⟨⟩, hhead, hrest⟩
      exact ⟨hhead, hrest⟩
    · rintro ⟨hhead, hrest⟩
      exact ⟨(), hhead, hrest⟩

/-- A built index is well formed and holds the visible records. -/
structure IndexOf (S : Type) [ScoreArith S] (index : HnswIndex) (segments : List Segment)
    (id : CollectionId) (metric : DistanceMetric) (config : HnswConfig) : Prop where
  validated : config.validate = .ok config
  collectionId : index.collectionId = id
  sameMetric : index.metric = metric
  sameConfig : index.config = config
  records : index.records = visibleRecords segments id
  dimension : index.dimension = index.records.head?.map fun record => record.vector.length
  built : index.Built S (index.dimension.getD 0)

theorem mergeSort_visibleRecords (segments : List Segment) (collectionId : CollectionId) :
    ((visibleRecords segments collectionId).mergeSort fun left right => left.id ≤ right.id) =
      visibleRecords segments collectionId := by
  apply List.mergeSort_of_pairwise
  exact sorted_visibleRecords.imp fun h => decide_eq_true h.le

theorem indexOf_of_build {segments : List Segment} {collectionId : CollectionId}
    {metric : DistanceMetric} {config : HnswConfig}
    (h : build S segments collectionId metric config = .ok index) :
    IndexOf S index segments collectionId metric config := by
  obtain ⟨validated, hvalidated, hbuild⟩ := except_bind_ok.mp h
  obtain ⟨rfl, -⟩ := HnswConfig.validate_ok_iff.mp hvalidated
  rw [mergeSort_visibleRecords] at hbuild
  obtain ⟨⟨⟩, hchecked, hinsert⟩ := except_bind_ok.mp hbuild
  generalize hrecords : visibleRecords segments collectionId = records at hchecked hinsert
  generalize hdimension : (records.head?.map fun record => record.vector.length) = dimension
    at hchecked hinsert
  obtain ⟨index', hindex', hbuilt, hsame, hall⟩ :=
    (empty_built collectionId metric validated dimension (dimension.getD 0)).insertAll_ok
      (forM_checkRecord_ok_iff.mp hchecked)
  rw [hindex'] at hinsert
  cases hinsert
  have hnodes : index.records = records := hall
  refine ⟨hvalidated, hsame.collectionId, hsame.metric, hsame.config, by rw [hrecords, hnodes], ?_,
    by rwa [hsame.dimension]⟩
  rw [hsame.dimension, hnodes, hdimension]

/-- Visible records of one dimension can be indexed. -/
theorem build_exists {segments : List Segment} {collectionId : CollectionId}
    {metric : DistanceMetric} {config : HnswConfig} (hconfig : config.validate = .ok config)
    (hrecords : ∀ record ∈ visibleRecords segments collectionId,
      Comparable S metric dimension record.vector.values) :
    ∃ index, build S segments collectionId metric config = .ok index := by
  have hhead : ∀ record ∈ visibleRecords segments collectionId, Comparable S metric
      (((visibleRecords segments collectionId).head?.map fun record => record.vector.length).getD 0)
      record.vector.values := by
    intro record hrecord
    cases hvisible : visibleRecords segments collectionId with
    | nil =>
      rw [hvisible] at hrecord
      cases hrecord
    | cons first rest =>
      have hfirst := hrecords first (by rw [hvisible]; exact List.mem_cons_self ..)
      obtain ⟨hlen, hnorm⟩ := hrecords record hrecord
      exact ⟨hlen.trans hfirst.1.symm, hnorm⟩
  obtain ⟨index, hindex, -⟩ :=
    (empty_built (S := S) collectionId metric config _ _).insertAll_ok hhead
  refine ⟨index, except_bind_ok.mpr ⟨config, hconfig, ?_⟩⟩
  rw [mergeSort_visibleRecords]
  exact except_bind_ok.mpr ⟨(), forM_checkRecord_ok_iff.mpr hhead, hindex⟩

/-! ### Queries -/

theorem validateQuery_ok_iff {topK : ℕ} : index.validateQuery S query topK = .ok () ↔
    0 < topK ∧ topK ≤ index.config.efSearch ∧ query ≠ [] ∧ firstNonFinite 0 query = none ∧
      (∀ expected, index.dimension = some expected → query.length = expected) ∧
      (index.metric = .cosine → ¬hasZeroNorm S query) := by
  unfold validateQuery
  by_cases htop : topK = 0
  · simp [htop]
  by_cases hef : index.config.efSearch < topK
  · simp [htop, hef]
  by_cases hquery : query = []
  · simp [htop, hef, hquery]
  rw [if_neg htop, if_neg hef, if_neg hquery]
  have hrange : 0 < topK ∧ topK ≤ index.config.efSearch := by omega
  cases hfinite : firstNonFinite 0 query with
  | some position => simp
  | none =>
    cases hdimension : index.dimension with
    | none => simp [hrange, hquery]
    | some expected =>
      by_cases hlen : query.length = expected
      · simp [hrange, hquery, hlen, Option.filter]
      · simp [hlen, Option.filter]

variable {control : QueryControl}

theorem Valid.collectHits_ok (hvalid : index.Valid S dimension)
    (hquery : Comparable S index.metric dimension query) (hcontrol : control.check = .ok ())
    {candidates : List ℕ} (hcandidates : ∀ candidate ∈ candidates, index.InLayer layer candidate)
    (position : ℕ) : ∃ hits, collectHits S index query control position candidates = .ok hits := by
  induction candidates generalizing position with
  | nil => exact ⟨[], rfl⟩
  | cons head rest ih =>
    obtain ⟨node, hnode, -⟩ := hcandidates head (List.mem_cons_self ..)
    obtain ⟨hits, hhits⟩ := ih (fun candidate hcandidate =>
      hcandidates candidate (List.mem_cons_of_mem _ hcandidate)) (position + 1)
    obtain ⟨value, hvalue⟩ :
        ∃ value : S, score query node.record.vector.values index.metric = .ok value := by
      have hnodeVector := hvalid.comparable node (List.mem_of_getElem? hnode)
      unfold score
      cases hmetric : index.metric with
      | l2 => exact ⟨_, rfl⟩
      | dot => exact ⟨_, rfl⟩
      | cosine =>
        cases hcosine : (cosine query node.record.vector.values : Option S) with
        | some value => exact ⟨value, rfl⟩
        | none =>
          rcases cosine_eq_none_iff.mp hcosine with hzero | hzero
          · exact absurd hzero (hquery.2 hmetric)
          · exact absurd hzero (hnodeVector.2 hmetric)
    refine ⟨⟨node.record, value⟩ :: hits, ?_⟩
    simp only [collectHits, Search.checkEvery_ok hcontrol, getNode, hnode, except_ok_bind, hvalue,
      hhits]
    rfl

theorem IndexOf.comparable_query {segments : List Segment} {collectionId : CollectionId}
    {metric : DistanceMetric} {config : HnswConfig} {topK entry : ℕ}
    (hindex : IndexOf S index segments collectionId metric config)
    (hentry : index.entryPoint = some entry) (hquery : index.validateQuery S query topK = .ok ()) :
    Comparable S index.metric (index.dimension.getD 0) query := by
  obtain ⟨-, -, -, -, hdimension, hnorm⟩ := validateQuery_ok_iff.mp hquery
  refine ⟨?_, hnorm⟩
  cases hnodes : index.nodes with
  | nil =>
    have hlt := (hindex.built.entry entry hentry).lt
    rw [hnodes] at hlt
    cases hlt
  | cons first rest =>
    have hsome := hindex.dimension
    rw [HnswIndex.records, hnodes] at hsome
    rw [hdimension _ hsome, hsome]
    rfl

/-- A built index answers exactly the queries that pass its own checks. -/
theorem search_ok_iff {segments : List Segment} {collectionId : CollectionId}
    {metric : DistanceMetric} {config : HnswConfig} {topK : ℕ}
    (hindex : IndexOf S index segments collectionId metric config) :
    (∃ hits, index.searchWithControl S query topK control = .ok hits) ↔
      control.check = .ok () ∧ index.validateQuery S query topK = .ok () := by
  constructor
  · rintro ⟨hits, h⟩
    obtain ⟨⟨⟩, hcheck, h⟩ := except_bind_ok.mp h
    obtain ⟨⟨⟩, hvalid, -⟩ := except_bind_ok.mp h
    refine ⟨?_, hvalid⟩
    unfold checkControl at hcheck
    cases hcontrol : control.check with
    | ok => rfl
    | error error =>
      rw [hcontrol] at hcheck
      cases hcheck
  · rintro ⟨hcontrol, hvalidated⟩
    unfold searchWithControl
    rw [checkControl_ok hcontrol, hvalidated, except_ok_bind, except_ok_bind]
    cases hentry : index.entryPoint with
    | none => exact ⟨[], rfl⟩
    | some entry =>
      have hlayer := hindex.built.entry entry hentry
      have hquery := hindex.comparable_query hentry hvalidated
      obtain ⟨current, hcurrent, hcurrentLayer⟩ :=
        hindex.built.valid.descend_ok hquery hcontrol 1 hlayer
      obtain ⟨candidates, hcandidates, hwithin⟩ := hindex.built.valid.searchLayer_ok hquery
        hcontrol index.config.efSearch (hcurrentLayer.mono (Nat.zero_le _))
      obtain ⟨hits, hhits⟩ := hindex.built.valid.collectHits_ok hquery hcontrol hwithin 0
      refine ⟨(hits.mergeSort fun left right =>
        (compareHits index.metric left right).isLE).take topK, ?_⟩
      simp only [searchFrom, hcurrent, hcandidates, hhits, checkControl_ok hcontrol, except_ok_bind]
      rfl

end Build

end HnswIndex

end Ketebe
