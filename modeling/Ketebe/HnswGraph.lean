import Ketebe.Hnsw
import Mathlib.Data.Finset.Card
import Mathlib.Data.Finset.Range
import Mathlib.Data.Prod.Lex

/-!
Well-formed graphs. In a graph whose edges stay within their layer and whose
vectors can all be compared, no search panics or runs out of iterations: the
greedy descent visits ever smaller ranks, and a layer search visits every node
once. Building produces such graphs.
-/
namespace Ketebe

open Lib.ByteCodec

namespace HnswIndex

/-- The node exists and reaches up to the layer. -/
def InLayer (index : HnswIndex) (layer position : ℕ) : Prop :=
  ∃ node, index.nodes[position]? = some node ∧ layer ≤ node.level

/-- A vector that can be compared with every node of a graph of this dimension. -/
def Comparable (S : Type) [ScoreArith S] (metric : DistanceMetric) (dimension : ℕ)
    (vector : List F32) : Prop :=
  vector.length = dimension ∧ (metric = .cosine → ¬hasZeroNorm S vector)

/-- What the searches rely on. -/
structure Valid (S : Type) [ScoreArith S] (index : HnswIndex) (dimension : ℕ) : Prop where
  comparable : ∀ node ∈ index.nodes,
    Comparable S index.metric dimension node.record.vector.values
  layers : ∀ node ∈ index.nodes, node.neighbors.length = node.level + 1
  edges : ∀ node ∈ index.nodes, ∀ (layer : ℕ) (neighbors : List ℕ),
    node.neighbors[layer]? = some neighbors → ∀ neighbor ∈ neighbors, index.InLayer layer neighbor

theorem InLayer.mono {index : HnswIndex} {layer layer' position : ℕ}
    (h : index.InLayer layer position) (hle : layer' ≤ layer) : index.InLayer layer' position := by
  obtain ⟨node, hnode, hlevel⟩ := h
  exact ⟨node, hnode, hle.trans hlevel⟩

theorem InLayer.lt {index : HnswIndex} {layer position : ℕ} (h : index.InLayer layer position) :
    position < index.nodes.length := by
  obtain ⟨node, hnode, -⟩ := h
  exact (List.getElem?_eq_some_iff.mp hnode).1

section Search

variable {S : Type} [ScoreArith S] {index : HnswIndex} {query : List F32} {dimension layer : ℕ}

theorem Valid.getNeighbors_ok (hvalid : index.Valid S dimension) {position : ℕ}
    (h : index.InLayer layer position) : ∃ neighbors,
      index.getNeighbors position layer = .ok neighbors ∧
        ∀ neighbor ∈ neighbors, index.InLayer layer neighbor := by
  obtain ⟨node, hnode, hlevel⟩ := h
  have hmem := List.mem_of_getElem? hnode
  have hlt : layer < node.neighbors.length := by
    rw [hvalid.layers node hmem]
    omega
  have hneighbors := List.getElem?_eq_getElem hlt
  refine ⟨node.neighbors[layer], ?_, hvalid.edges node hmem layer _ hneighbors⟩
  simp only [getNeighbors, getNode, hnode, except_ok_bind, hneighbors]
  rfl

theorem distance_ok {vector : List F32} {metric : DistanceMetric}
    (hquery : Comparable S metric dimension query)
    (hvector : Comparable S metric dimension vector) :
    ∃ value : S, distance query vector metric = .ok value := by
  have hlen : query.length = vector.length := hquery.1.trans hvector.1.symm
  unfold distance
  rw [if_neg (not_not.mpr hlen)]
  cases metric with
  | l2 => exact ⟨_, rfl⟩
  | dot => exact ⟨_, rfl⟩
  | cosine =>
    cases hcosine : (cosine query vector : Option S) with
    | some value => exact ⟨ScoreArith.neg value, rfl⟩
    | none =>
      rcases cosine_eq_none_iff.mp hcosine with hzero | hzero
      · exact absurd hzero (hquery.2 rfl)
      · exact absurd hzero (hvector.2 rfl)

/-- Every node has a rank, and both ways to compute it agree. -/
theorem Valid.rankOf_ok (hvalid : index.Valid S dimension)
    (hquery : Comparable S index.metric dimension query) {position : ℕ}
    (h : index.InLayer layer position) : ∃ value : Rank S,
      rankOf S index query position = .ok value ∧ index.rank query position = .ok value ∧
        index.nodeDistance query position = .ok value.1 := by
  obtain ⟨node, hnode, -⟩ := h
  obtain ⟨value, hvalue⟩ :=
    distance_ok hquery (hvalid.comparable node (List.mem_of_getElem? hnode))
  have hdistance : index.nodeDistance query position = .ok value := by
    simp only [nodeDistance, getNode, hnode]
    exact hvalue
  refine ⟨(value, node.record.id), ?_, ?_, hdistance⟩
  · simp only [rankOf, hdistance, getNode, hnode]
    rfl
  · simp only [rank, hdistance, getNode, hnode]
    rfl

theorem Valid.ranked_ok (hvalid : index.Valid S dimension)
    (hquery : Comparable S index.metric dimension query) {candidates : List ℕ}
    (h : ∀ candidate ∈ candidates, index.InLayer layer candidate) : ∃ entries,
      ranked S index query candidates = .ok entries ∧ entries.map Prod.snd = candidates := by
  induction candidates with
  | nil => exact ⟨[], rfl, rfl⟩
  | cons head rest ih =>
    obtain ⟨value, -, hvalue, -⟩ := hvalid.rankOf_ok hquery (h head (List.mem_cons_self ..))
    obtain ⟨entries, hentries, hmap⟩ := ih fun candidate hcandidate =>
      h candidate (List.mem_cons_of_mem _ hcandidate)
    refine ⟨(value, head) :: entries, ?_, by rw [List.map_cons, hmap]⟩
    unfold ranked at hentries ⊢
    rw [List.mapM_cons, hvalue, hentries]
    rfl

theorem Valid.sortByDistance_ok (hvalid : index.Valid S dimension)
    (hquery : Comparable S index.metric dimension query) {candidates : List ℕ}
    (h : ∀ candidate ∈ candidates, index.InLayer layer candidate) : ∃ sorted,
      sortByDistance S index query candidates = .ok sorted ∧ sorted.Perm candidates := by
  unfold sortByDistance
  split
  · exact ⟨candidates, rfl, List.Perm.refl _⟩
  · obtain ⟨entries, hentries, hmap⟩ := hvalid.ranked_ok hquery h
    refine ⟨_, by rw [hentries]; rfl, ?_⟩
    rw [← hmap]
    exact (List.mergeSort_perm ..).map Prod.snd

theorem Valid.nearest_ok (hvalid : index.Valid S dimension)
    (hquery : Comparable S index.metric dimension query) {candidates : List ℕ}
    (h : ∀ candidate ∈ candidates, index.InLayer layer candidate) :
    ∃ position, nearest S index query candidates = .ok position := by
  unfold nearest
  split
  · exact ⟨0, rfl⟩
  · obtain ⟨entries, hentries, -⟩ := hvalid.ranked_ok hquery h
    exact ⟨minPosition entries, by rw [hentries]; rfl⟩

theorem swapRemove_spec {values : List ℕ} {position : ℕ} (h : position < values.length) :
    (swapRemove values position).length + 1 = values.length ∧
      ∀ value ∈ swapRemove values position, value ∈ values := by
  unfold swapRemove
  cases hlast : values.getLast? with
  | none =>
    rw [List.getLast?_eq_none_iff] at hlast
    rw [hlast] at h
    cases h
  | some last =>
    refine ⟨?_, fun value hvalue => ?_⟩
    · simp only [List.length_dropLast, List.length_set]
      omega
    · rcases List.mem_or_eq_of_mem_set (List.mem_of_mem_dropLast hvalue) with hmem | rfl
      · exact hmem
      · exact List.mem_of_getLast? hlast

theorem Valid.popNearest_ok (hvalid : index.Valid S dimension)
    (hquery : Comparable S index.metric dimension query) {frontier : List ℕ}
    (h : ∀ candidate ∈ frontier, index.InLayer layer candidate) : ∃ popped,
      popNearest S index query frontier = .ok popped ∧ ∀ current rest, popped = some (current, rest) →
        current ∈ frontier ∧ (∀ candidate ∈ rest, candidate ∈ frontier) ∧
          rest.length + 1 = frontier.length := by
  obtain ⟨position, hposition⟩ := hvalid.nearest_ok hquery h
  unfold popNearest
  rw [hposition]
  cases hcurrent : frontier[position]? with
  | none => exact ⟨none, by simp only [except_ok_bind, hcurrent]; rfl, nofun⟩
  | some current =>
    refine ⟨some (current, swapRemove frontier position), ?_, ?_⟩
    · simp only [except_ok_bind, hcurrent]
      rfl
    · rintro _ _ ⟨⟩
      obtain ⟨hlen, hsubset⟩ := swapRemove_spec (List.getElem?_eq_some_iff.mp hcurrent).1
      exact ⟨List.mem_of_getElem? hcurrent, hsubset, hlen⟩

/-! ### The greedy descent -/

theorem lt_of_improves {candidate current : Rank S} (h : improves candidate current) :
    toLex candidate < toLex current := by
  rw [Prod.Lex.toLex_lt_toLex]
  simp only [improves, Bool.or_eq_true, Bool.and_eq_true, decide_eq_true_eq] at h
  exact h.imp_left ScoreArith.lt_of_lessThan

open Classical in
/-- The nodes of a smaller rank. -/
noncomputable def below (S : Type) [ScoreArith S] (index : HnswIndex) (query : List F32)
    (bound : Rank S) : Finset ℕ :=
  (Finset.range index.nodes.length).filter fun position =>
    ∃ value : Rank S, rankOf S index query position = .ok value ∧ toLex value < toLex bound

theorem mem_below {bound : Rank S} {position : ℕ} : position ∈ below S index query bound ↔
    position < index.nodes.length ∧
      ∃ value : Rank S, rankOf S index query position = .ok value ∧ toLex value < toLex bound := by
  classical
  rw [below, Finset.mem_filter, Finset.mem_range]

theorem not_mem_below_self {current : ℕ} {value : Rank S}
    (hrank : rankOf S index query current = .ok value) : current ∉ below S index query value := by
  rw [mem_below]
  rintro ⟨-, other, hother, hsmaller⟩
  rw [hrank] at hother
  cases hother
  exact lt_irrefl _ hsmaller

/-- An improvement leaves the new rank itself behind. -/
theorem card_below_lt {candidate : ℕ} {value bound : Rank S}
    (hrank : rankOf S index query candidate = .ok value)
    (hlt : candidate < index.nodes.length) (himproves : toLex value < toLex bound) :
    (below S index query value).card < (below S index query bound).card := by
  apply Finset.card_lt_card
  refine (Finset.ssubset_iff_of_subset fun position hposition => ?_).mpr
    ⟨candidate, mem_below.mpr ⟨hlt, value, hrank, himproves⟩, not_mem_below_self hrank⟩
  obtain ⟨hrange, other, hother, hsmaller⟩ := mem_below.mp hposition
  exact mem_below.mpr ⟨hrange, other, hother, hsmaller.trans himproves⟩

theorem card_below_lt_length {current : ℕ} {value : Rank S}
    (hrank : rankOf S index query current = .ok value) (hlt : current < index.nodes.length) :
    (below S index query value).card < index.nodes.length := by
  have hsubset : below S index query value ⊂ Finset.range index.nodes.length := by
    refine (Finset.ssubset_iff_of_subset fun position hposition => ?_).mpr
      ⟨current, Finset.mem_range.mpr hlt, not_mem_below_self hrank⟩
    exact Finset.mem_range.mpr (mem_below.mp hposition).1
  simpa using Finset.card_lt_card hsubset

variable {control : QueryControl}

theorem checkControl_ok (hcontrol : control.check = .ok ()) : checkControl control = .ok () := by
  rw [checkControl, hcontrol]
  rfl

/-- Each iteration moves to a smaller rank, so there are enough of them. -/
theorem Valid.greedySearchLoop_ok (hvalid : index.Valid S dimension)
    (hquery : Comparable S index.metric dimension query) (hcontrol : control.check = .ok ())
    {iterations current : ℕ} {value : Rank S} (hcurrent : index.InLayer layer current)
    (hrank : rankOf S index query current = .ok value)
    (hiterations : (below S index query value).card < iterations) : ∃ found,
      greedySearchLoop S index query layer control iterations current = .ok found ∧
        index.InLayer layer found := by
  induction iterations generalizing current value with
  | zero => cases hiterations
  | succ iterations ih =>
    obtain ⟨neighbors, hneighbors, hlayer⟩ := hvalid.getNeighbors_ok hcurrent
    obtain ⟨position, hposition⟩ := hvalid.nearest_ok hquery hlayer
    simp only [greedySearchLoop, checkControl_ok hcontrol, hrank, hneighbors, hposition,
      except_ok_bind]
    cases hcandidate : neighbors[position]? with
    | none => exact ⟨current, rfl, hcurrent⟩
    | some candidate =>
      have hinLayer := hlayer candidate (List.mem_of_getElem? hcandidate)
      obtain ⟨other, hother, -⟩ := hvalid.rankOf_ok hquery hinLayer
      simp only [hother, except_ok_bind]
      by_cases himproves : improves other value
      · rw [if_pos himproves]
        have hfewer := card_below_lt hother hinLayer.lt (lt_of_improves himproves)
        exact ih hinLayer hother (by omega)
      · rw [if_neg himproves]
        exact ⟨current, rfl, hcurrent⟩

theorem Valid.descendLayer_ok (hvalid : index.Valid S dimension)
    (hquery : Comparable S index.metric dimension query) (hcontrol : control.check = .ok ())
    {current : ℕ} (hcurrent : index.InLayer layer current) : ∃ found,
      descendLayer S index query control current layer = .ok found ∧
        index.InLayer layer found := by
  obtain ⟨value, hrank, -⟩ := hvalid.rankOf_ok hquery hcurrent
  rw [descendLayer, checkControl_ok hcontrol, except_ok_bind, greedySearchLevelControlled]
  exact hvalid.greedySearchLoop_ok hquery hcontrol hcurrent hrank
    (card_below_lt_length hrank hcurrent.lt)

theorem layersDown_of_lt {low high : ℕ} (h : high < low) : layersDown low high = [] := by
  rw [layersDown, Nat.sub_eq_zero_of_le h]
  rfl

theorem layersDown_succ {low high : ℕ} (h : low ≤ high + 1) :
    layersDown low (high + 1) = (high + 1) :: layersDown low high := by
  have hcount : high + 1 + 1 - low = (high + 1 - low) + 1 := by omega
  have hlast : low + (high + 1 - low) = high + 1 := by omega
  rw [layersDown, hcount, List.range'_concat, List.reverse_append, layersDown]
  simp [hlast]

/-- The descent ends at a node of the lowest layer it went through. -/
theorem Valid.descend_ok (hvalid : index.Valid S dimension)
    (hquery : Comparable S index.metric dimension query) (hcontrol : control.check = .ok ())
    (low : ℕ) {high entry : ℕ} (hentry : index.InLayer high entry) : ∃ found,
      descend S index query control entry (layersDown low high) = .ok found ∧
        index.InLayer (min low high) found := by
  induction high generalizing entry with
  | zero =>
    cases low with
    | zero =>
      obtain ⟨found, hfound, hlayer⟩ := hvalid.descendLayer_ok hquery hcontrol hentry
      refine ⟨found, ?_, hlayer⟩
      simp only [descend, layersDown, Nat.zero_add, Nat.sub_zero, List.range'_one,
        List.reverse_singleton, List.foldlM_cons, List.foldlM_nil, hfound, except_ok_bind]
      rfl
    | succ low => exact ⟨entry, by rw [layersDown_of_lt (by omega)]; rfl, by simpa using hentry⟩
  | succ high ih =>
    by_cases hlow : low ≤ high + 1
    · obtain ⟨next, hnext, hlayer⟩ := hvalid.descendLayer_ok hquery hcontrol hentry
      have hfirst : descend S index query control entry (layersDown low (high + 1)) =
          descend S index query control next (layersDown low high) := by
        rw [layersDown_succ hlow, descend, List.foldlM_cons, hnext, except_ok_bind, descend]
      rw [hfirst, min_eq_left hlow]
      by_cases hlast : low ≤ high
      · obtain ⟨found, hfound, hlowest⟩ := ih (hlayer.mono (Nat.le_succ high))
        exact ⟨found, hfound, by rwa [min_eq_left hlast] at hlowest⟩
      · rw [layersDown_of_lt (not_le.mp hlast)]
        exact ⟨next, rfl, hlayer.mono hlow⟩
    · rw [layersDown_of_lt (not_le.mp hlow), min_eq_right (not_le.mp hlow).le]
      exact ⟨entry, rfl, hentry⟩

/-! ### One layer -/

/-- A layer search knows only nodes of the layer and visits none twice. -/
structure LayerSearch.Within (index : HnswIndex) (layer : ℕ) (state : LayerSearch) : Prop where
  nodup : state.visited.Nodup
  visited : ∀ position ∈ state.visited, index.InLayer layer position
  frontier : ∀ position ∈ state.frontier, index.InLayer layer position
  best : ∀ position ∈ state.best, index.InLayer layer position

/-- How many more nodes the loop can take from its frontier. -/
def LayerSearch.pending (index : HnswIndex) (state : LayerSearch) : ℕ :=
  index.nodes.length - state.visited.length + state.frontier.length

theorem LayerSearch.Within.length_visited_le {state : LayerSearch} (h : state.Within index layer) :
    state.visited.length ≤ index.nodes.length := by
  have hsubset : state.visited ⊆ List.range index.nodes.length := fun position hposition =>
    List.mem_range.mpr (h.visited position hposition).lt
  simpa using (List.subperm_of_subset h.nodup hsubset).length_le

theorem Valid.visitNeighbor_ok (hvalid : index.Valid S dimension)
    (hquery : Comparable S index.metric dimension query) (ef : ℕ) {neighbor : ℕ}
    {state : LayerSearch} (h : state.Within index layer) (hneighbor : index.InLayer layer neighbor) : ∃ next,
      visitNeighbor S index query ef state neighbor = .ok next ∧ next.Within index layer ∧
        next.pending index = state.pending index := by
  unfold visitNeighbor
  split
  · exact ⟨state, rfl, h, rfl⟩
  · rename_i hnew
    have happend (values : List ℕ) (hvalues : ∀ position ∈ values, index.InLayer layer position) :
        ∀ position ∈ values ++ [neighbor], index.InLayer layer position := by
      intro position hposition
      rcases List.mem_append.mp hposition with hold | hsingle
      · exact hvalues position hold
      · rwa [List.mem_singleton.mp hsingle]
    obtain ⟨sorted, hsorted, hperm⟩ :=
      hvalid.sortByDistance_ok hquery (happend state.best h.best)
    have hnext : LayerSearch.Within index layer
        ⟨neighbor :: state.visited, state.frontier ++ [neighbor], sorted.take ef⟩ := by
      refine ⟨List.nodup_cons.mpr ⟨hnew, h.nodup⟩, ?_, happend _ h.frontier, ?_⟩
      · exact List.forall_mem_cons.mpr ⟨hneighbor, h.visited⟩
      · intro position hposition
        exact happend _ h.best position (hperm.mem_iff.mp (List.mem_of_mem_take hposition))
    refine ⟨_, by rw [hsorted]; rfl, hnext, ?_⟩
    have hle := hnext.length_visited_le
    simp only [LayerSearch.pending, List.length_cons, List.length_append, List.length_nil] at hle ⊢
    omega

theorem Valid.visitNeighbors_ok (hvalid : index.Valid S dimension)
    (hquery : Comparable S index.metric dimension query) (ef : ℕ) {neighbors : List ℕ}
    {state : LayerSearch} (h : state.Within index layer)
    (hneighbors : ∀ neighbor ∈ neighbors, index.InLayer layer neighbor) : ∃ next,
      neighbors.foldlM (visitNeighbor S index query ef) state = .ok next ∧
        next.Within index layer ∧ next.pending index = state.pending index := by
  induction neighbors generalizing state with
  | nil => exact ⟨state, rfl, h, rfl⟩
  | cons head rest ih =>
    obtain ⟨middle, hmiddle, hwithin, hpending⟩ :=
      hvalid.visitNeighbor_ok hquery ef h (hneighbors head (List.mem_cons_self ..))
    obtain ⟨next, hnext, hlast, hpending'⟩ := ih hwithin fun neighbor hneighbor =>
      hneighbors neighbor (List.mem_cons_of_mem _ hneighbor)
    refine ⟨next, ?_, hlast, hpending'.trans hpending⟩
    rw [List.foldlM_cons, hmiddle, except_ok_bind, hnext]

theorem Valid.isExhausted_ok (hvalid : index.Valid S dimension)
    (hquery : Comparable S index.metric dimension query) (ef : ℕ) {current : ℕ} {best : List ℕ}
    (hbest : ∀ position ∈ best, index.InLayer layer position)
    (hcurrent : index.InLayer layer current) :
    ∃ exhausted, isExhausted S index query ef best current = .ok exhausted := by
  obtain ⟨value, -, -, hvalue⟩ := hvalid.rankOf_ok hquery hcurrent
  unfold isExhausted
  cases hlast : best.getLast? with
  | none =>
    simp only [hvalue]
    split
    · exact ⟨_, rfl⟩
    · exact ⟨false, rfl⟩
  | some last =>
    obtain ⟨worst, -, -, hworst⟩ :=
      hvalid.rankOf_ok hquery (hbest last (List.mem_of_getLast? hlast))
    simp only [hvalue, hworst]
    split
    · exact ⟨_, rfl⟩
    · exact ⟨false, rfl⟩

/-- Every iteration takes a node from the frontier and none enters it twice. -/
theorem Valid.searchLayerLoop_ok (hvalid : index.Valid S dimension)
    (hquery : Comparable S index.metric dimension query) (hcontrol : control.check = .ok ())
    {ef iterations : ℕ} {state : LayerSearch} (h : state.Within index layer)
    (hiterations : state.pending index < iterations) : ∃ found,
      searchLayerLoop S index query ef layer control iterations state = .ok found ∧
        ∀ position ∈ found, index.InLayer layer position := by
  induction iterations generalizing state with
  | zero => cases hiterations
  | succ iterations ih =>
    obtain ⟨popped, hpopped, hspec⟩ := hvalid.popNearest_ok hquery h.frontier
    simp only [searchLayerLoop, hpopped, except_ok_bind]
    cases popped with
    | none => exact ⟨state.best, rfl, h.best⟩
    | some popped =>
      obtain ⟨current, rest⟩ := popped
      obtain ⟨hcurrent, hrest, hlength⟩ := hspec current rest rfl
      have hinLayer := h.frontier current hcurrent
      obtain ⟨exhausted, hexhausted⟩ :=
        hvalid.isExhausted_ok hquery ef h.best hinLayer
      simp only [checkControl_ok hcontrol, hexhausted, except_ok_bind]
      cases exhausted with
      | true => exact ⟨state.best, rfl, h.best⟩
      | false =>
        obtain ⟨neighbors, hneighbors, hlayer⟩ := hvalid.getNeighbors_ok hinLayer
        have hpoppedState : LayerSearch.Within index layer { state with frontier := rest } :=
          ⟨h.nodup, h.visited, fun position hposition =>
            h.frontier position (hrest position hposition), h.best⟩
        obtain ⟨next, hnext, hwithin, hpending⟩ :=
          hvalid.visitNeighbors_ok hquery ef hpoppedState hlayer
        simp only [Bool.false_eq_true, if_false, hneighbors, hnext, except_ok_bind]
        apply ih hwithin
        rw [hpending]
        simp only [LayerSearch.pending] at hiterations ⊢
        omega

theorem Valid.searchLayer_ok (hvalid : index.Valid S dimension)
    (hquery : Comparable S index.metric dimension query) (hcontrol : control.check = .ok ())
    (ef : ℕ) {entry : ℕ} (hentry : index.InLayer layer entry) : ∃ found,
      searchLayerControlled S index query entry ef layer control = .ok found ∧
        ∀ position ∈ found, index.InLayer layer position := by
  have hstart : LayerSearch.Within index layer ⟨[entry], [entry], [entry]⟩ := by
    have hsingle : ∀ position ∈ [entry], index.InLayer layer position :=
      List.forall_mem_singleton.mpr hentry
    exact ⟨List.nodup_singleton entry, hsingle, hsingle, hsingle⟩
  have hpending : LayerSearch.pending index ⟨[entry], [entry], [entry]⟩ <
      index.nodes.length + 1 := by
    have hlt := hentry.lt
    simp only [LayerSearch.pending, List.length_singleton]
    omega
  rw [searchLayerControlled, checkControl_ok hcontrol, except_ok_bind]
  exact hvalid.searchLayerLoop_ok hquery hcontrol hstart hpending

end Search

end HnswIndex

end Ketebe
