import Ketebe.FloatScores
import Ketebe.HnswReach
import Ketebe.HnswSnapshot

/-!
Traversing a stored graph. What the checks of a stored graph admit is enough for both
searches of a layer, whether or not the graph was ever built: edges may run one way and in
circles. The greedy search compares by `<` where the order is that of `total_cmp`, and so
it may stop beside a nearer neighbour when `<` does not tell the two apart.
-/
namespace Ketebe

open Lib.ByteCodec

namespace HnswIndex

variable {S : Type} [ScoreArith S] {graph index : HnswIndex} {query : List F32}
  {dimension layer : ℕ}

/-! ### Accepted graphs -/

theorem inLayer_of_checkLayer {position : ℕ} {neighbors : List ℕ}
    (h : checkLayer graph position neighbors layer = .ok ()) :
    ∀ neighbor ∈ neighbors, graph.InLayer layer neighbor := by
  intro neighbor hneighbor
  obtain ⟨place, hplace⟩ := List.mem_iff_getElem?.mp hneighbor
  have hlt := (List.getElem?_eq_some_iff.mp hplace).1
  have hedge := except_forM_ok.mp h place (List.mem_range.mpr hlt)
  simp only [checkEdge, hplace] at hedge
  cases hnode : graph.nodes[neighbor]? with
  | none =>
    rw [hnode] at hedge
    cases hedge
  | some node =>
    simp only [hnode] at hedge
    split at hedge
    · cases hedge
    · split at hedge
      · cases hedge
      · rename_i hlevel
        exact ⟨node, hnode, not_lt.mp hlevel⟩

structure NodeAccepted (S : Type) [ScoreArith S] (graph : HnswIndex) (dimension : ℕ)
    (node : HnswNode) : Prop where
  comparable : Comparable S graph.metric dimension node.record.vector.values
  layers : node.neighbors.length = node.level + 1
  edges : ∀ (layer : ℕ) (neighbors : List ℕ), node.neighbors[layer]? = some neighbors →
    ∀ neighbor ∈ neighbors, graph.InLayer layer neighbor

theorem accepted_of_checkNode {node : HnswNode} {position : ℕ}
    (h : checkNode S graph dimension node position = .ok ()) :
    NodeAccepted S graph dimension node := by
  unfold checkNode at h
  split at h
  · cases h
  · rename_i hlength
    split at h
    · cases h
    · rename_i hnorm
      split at h
      · cases h
      · rename_i hlayers
        refine ⟨⟨not_not.mp hlength, fun hmetric hzero => hnorm ⟨hmetric, hzero⟩⟩,
          not_not.mp hlayers, fun layer neighbors hneighbors => ?_⟩
        exact inLayer_of_checkLayer (except_forM_ok.mp h (neighbors, layer)
          (List.mk_mem_zipIdx_iff_getElem?.mpr hneighbors))

/-- A graph with nodes that is accepted is one that the searches can rely on. -/
theorem Valid.of_accepted (haccepted : fromNativeGraph S graph = .ok index)
    (hnodes : index.nodes ≠ []) :
    ∃ dimension, index.dimension = some dimension ∧ index.Valid S dimension := by
  obtain rfl := fromNativeGraph_ok haccepted
  obtain ⟨-, -, h⟩ := except_bind_ok.mp haccepted
  rw [if_neg hnodes] at h
  obtain ⟨hcheck, -⟩ := except_check_ok.mp h
  unfold checkNonEmpty at hcheck
  split at hcheck
  · cases hcheck
  · cases hcheck
  · cases hcheck
  · rename_i dimension entry _ hdimension hentry
    obtain ⟨-, hall⟩ := except_check_ok.mp hcheck
    have hnode (node : HnswNode) (hmem : node ∈ index.nodes) :
        NodeAccepted S index dimension node := by
      obtain ⟨position, hposition⟩ := List.mem_iff_getElem?.mp hmem
      exact accepted_of_checkNode (except_forM_ok.mp hall (node, position)
        (List.mk_mem_zipIdx_iff_getElem?.mpr hposition))
    exact ⟨dimension, hdimension, fun node hmem => (hnode node hmem).comparable,
      fun node hmem => (hnode node hmem).layers, fun node hmem => (hnode node hmem).edges⟩

/-- A valid query can be compared with every node of an accepted graph. -/
theorem comparable_of_accepted (haccepted : fromNativeGraph S graph = .ok index) {topK : ℕ}
    (hquery : index.validateQuery S query topK = .ok ()) (hnodes : index.nodes ≠ []) :
    ∃ dimension, index.Valid S dimension ∧ Comparable S index.metric dimension query := by
  obtain ⟨dimension, hdimension, hvalid⟩ := Valid.of_accepted haccepted hnodes
  obtain ⟨-, -, -, -, hlength, hnorm⟩ := validateQuery_ok_iff.mp hquery
  exact ⟨dimension, hvalid, hlength dimension hdimension, hnorm⟩

/-! ### The order of the nodes -/

/-- The order by distance and id. -/
def Precedes (S : Type) [ScoreArith S] (index : HnswIndex) (query : List F32)
    (left right : ℕ) : Prop :=
  ∃ leftRank rightRank : Rank S, rankOf S index query left = .ok leftRank ∧
    rankOf S index query right = .ok rightRank ∧ compareRank leftRank rightRank = .lt

theorem compareRank_eq_lt_iff {left right : Rank S} :
    compareRank left right = .lt ↔ toLex left < toLex right := by
  rw [Prod.Lex.toLex_lt_toLex, compareRank, Ordering.then_eq_lt, compare_lt_iff_lt,
    compare_eq_iff_eq, compare_lt_iff_lt]

theorem not_compareRank_lt {left right : Rank S} (h : (compareRank left right).isLE) :
    compareRank right left ≠ .lt := by
  intro hlt
  have htrans : Std.TransCmp (compareRank : Rank S → Rank S → Ordering) :=
    inferInstanceAs (Std.TransCmp (compareLex (compareOn Prod.fst) (compareOn Prod.snd)))
  rw [Std.OrientedCmp.gt_iff_lt.mpr hlt] at h
  cases h

theorem rankOf_of_rank {position : ℕ} {value : Rank S}
    (h : index.rank query position = .ok value) : rankOf S index query position = .ok value := by
  obtain ⟨node, hnode, h⟩ := except_bind_ok.mp h
  cases hdistance : (index.nodeDistance query position : Except HnswError S) with
  | error error =>
    rw [hdistance] at h
    cases h
  | ok distance =>
    rw [hdistance] at h
    cases h
    rw [rankOf, hdistance, except_ok_bind, hnode]
    rfl

theorem rankOf_of_ranked {candidates : List ℕ} {entries : List (Rank S × ℕ)}
    (h : ranked S index query candidates = .ok entries) :
    ∀ entry ∈ entries, rankOf S index query entry.2 = .ok entry.1 := by
  intro entry hentry
  obtain ⟨position, -, hposition⟩ := (mem_of_except_mapM h).1 entry hentry
  obtain ⟨value, hvalue, hposition⟩ := except_bind_ok.mp hposition
  cases hposition
  exact rankOf_of_rank hvalue

theorem not_precedes_self {position : ℕ} : ¬Precedes S index query position position := by
  rintro ⟨left, right, hleft, hright, hlt⟩
  rw [hleft] at hright
  cases hright
  exact lt_irrefl _ (compareRank_eq_lt_iff.mp hlt)

/-- No candidate precedes the nearest one. -/
theorem nearest_least {candidates : List ℕ} {position candidate : ℕ}
    (h : nearest S index query candidates = .ok position)
    (hcandidate : candidates[position]? = some candidate) :
    ∀ other ∈ candidates, ¬Precedes S index query other candidate := by
  intro other hother
  unfold nearest at h
  split at h
  · rename_i hfew
    cases h
    have hsame : other = candidate := by
      match candidates, hfew with
      | [], _ => cases hother
      | [single], _ => exact (List.mem_singleton.mp hother).trans (Option.some.inj hcandidate)
    rw [hsame]
    exact not_precedes_self
  · obtain ⟨entries, hentries, h⟩ := except_bind_ok.mp h
    cases h
    have hsnd := ranked_snd hentries
    rw [← hsnd, List.getElem?_map] at hcandidate
    obtain ⟨entry, hentry, rfl⟩ := Option.map_eq_some_iff.mp hcandidate
    have hplace := hentry
    rw [minPosition] at hplace
    obtain ⟨hlt, hget⟩ := List.getElem?_eq_some_iff.mp hplace
    have hall := List.findIdx_getElem (w := hlt)
    rw [hget, List.all_eq_true] at hall
    rw [← hsnd] at hother
    obtain ⟨otherEntry, hmem, rfl⟩ := List.mem_map.mp hother
    rintro ⟨otherRank, rank, hotherRank, hrank, hprecedes⟩
    rw [rankOf_of_ranked hentries otherEntry hmem] at hotherRank
    rw [rankOf_of_ranked hentries entry (List.mem_of_getElem? hentry)] at hrank
    cases hotherRank
    cases hrank
    exact not_compareRank_lt (hall otherEntry hmem) hprecedes

/-- A list without a nearest candidate has no candidate. -/
theorem nearest_none {candidates : List ℕ} {position : ℕ}
    (h : nearest S index query candidates = .ok position)
    (hcandidate : candidates[position]? = none) : candidates = [] := by
  apply @popNearest_none S _ index query candidates
  rw [popNearest, h, except_ok_bind, hcandidate]
  rfl

/-! ### The greedy search -/

/-- The exact descent goes on to the nearest neighbour where that precedes the node. -/
def Descends (S : Type) [ScoreArith S] (index : HnswIndex) (query : List F32) (layer : ℕ)
    (current next : ℕ) : Prop :=
  ∃ neighbors position, index.getNeighbors current layer = .ok neighbors ∧
    nearest S index query neighbors = .ok position ∧ neighbors[position]? = some next ∧
      Precedes S index query next current

/-- The source's own test to go on to a node. -/
def Improving (S : Type) [ScoreArith S] (index : HnswIndex) (query : List F32)
    (current next : ℕ) : Prop :=
  ∃ nextRank currentRank : Rank S, rankOf S index query next = .ok nextRank ∧
    rankOf S index query current = .ok currentRank ∧ improves nextRank currentRank

/-- Wherever the exact descent goes on, so does the source. -/
def Unambiguous (S : Type) [ScoreArith S] (index : HnswIndex) (query : List F32) (layer : ℕ)
    (start : ℕ) : Prop :=
  ∀ source target, Relation.ReflTransGen (Descends S index query layer) start source →
    Descends S index query layer source target → Improving S index query source target

/-- None of the node's neighbours precedes it. -/
def Settled (S : Type) [ScoreArith S] (index : HnswIndex) (query : List F32) (layer : ℕ)
    (position : ℕ) : Prop :=
  ∀ neighbor, index.Edge layer position neighbor → ¬Precedes S index query neighbor position

section Greedy

variable {current candidate : ℕ} {neighbors : List ℕ} {position : ℕ} {control : QueryControl}

/-- One round has one place to go on to. -/
theorem Descends.eq (hneighbors : index.getNeighbors current layer = .ok neighbors)
    (hposition : nearest S index query neighbors = .ok position) {next : ℕ}
    (h : Descends S index query layer current next) : neighbors[position]? = some next := by
  obtain ⟨others, place, hothers, hplace, hnext, -⟩ := h
  rw [hneighbors] at hothers
  cases hothers
  rw [hposition] at hplace
  cases hplace
  exact hnext

theorem unambiguous_of_none (hneighbors : index.getNeighbors current layer = .ok neighbors)
    (hposition : nearest S index query neighbors = .ok position)
    (hnone : ∀ next, neighbors[position]? = some next → ¬Precedes S index query next current) :
    Unambiguous S index query layer current := by
  have hstops (next : ℕ) : ¬Descends S index query layer current next := fun hdescends =>
    hnone next (hdescends.eq hneighbors hposition) hdescends.choose_spec.choose_spec.2.2.2
  intro source target hpath hdescends
  rcases Relation.ReflTransGen.cases_head hpath with rfl | ⟨next, hnext, -⟩
  · exact absurd hdescends (hstops target)
  · exact absurd hnext (hstops next)

/-- Where the source goes on, the rest of the descent decides. -/
theorem unambiguous_iff_of_improves
    (hneighbors : index.getNeighbors current layer = .ok neighbors)
    (hposition : nearest S index query neighbors = .ok position)
    (hcandidate : neighbors[position]? = some candidate)
    (himproving : Improving S index query current candidate) :
    Unambiguous S index query layer current ↔ Unambiguous S index query layer candidate := by
  have hdescends : Descends S index query layer current candidate := by
    obtain ⟨nextRank, currentRank, hnext, hcurrent, himproves⟩ := himproving
    exact ⟨neighbors, position, hneighbors, hposition, hcandidate, nextRank, currentRank, hnext,
      hcurrent, compareRank_eq_lt_iff.mpr (lt_of_improves himproves)⟩
  have hunique (next : ℕ) (hnext : Descends S index query layer current next) :
      next = candidate :=
    Option.some.inj ((hnext.eq hneighbors hposition).symm.trans hcandidate)
  constructor
  · intro h source target hpath
    exact h source target (hpath.head hdescends)
  · intro h source target hpath htarget
    rcases Relation.ReflTransGen.cases_head hpath with rfl | ⟨next, hnext, hrest⟩
    · rwa [hunique target htarget]
    · exact h source target (hunique next hnext ▸ hrest) htarget

theorem settled_of_candidate (hneighbors : index.getNeighbors current layer = .ok neighbors)
    (hvalid : index.Valid S dimension) (hquery : Comparable S index.metric dimension query)
    (hcurrent : index.InLayer layer current)
    (hposition : nearest S index query neighbors = .ok position)
    (hcandidate : neighbors[position]? = some candidate) :
    Settled S index query layer current ↔ ¬Precedes S index query candidate current := by
  constructor
  · intro h
    exact h candidate ⟨neighbors, hneighbors, List.mem_of_getElem? hcandidate⟩
  · rintro h neighbor ⟨others, hothers, hmem⟩ ⟨rank, currentRank, hrank, hcurrentRank, hlt⟩
    rw [hneighbors] at hothers
    cases hothers
    have hlayer : index.InLayer layer candidate := by
      obtain ⟨others, hothers, hall⟩ := hvalid.getNeighbors_ok hcurrent
      rw [hneighbors] at hothers
      cases hothers
      exact hall candidate (List.mem_of_getElem? hcandidate)
    obtain ⟨nearestRank, hnearest, -⟩ := hvalid.rankOf_ok hquery hlayer
    -- The neighbour does not precede the nearest one, so that one precedes the node as well.
    have hleast := nearest_least hposition hcandidate neighbor hmem
    have hle : toLex nearestRank ≤ toLex rank := not_lt.mp fun hless =>
      hleast ⟨rank, nearestRank, hrank, hnearest, compareRank_eq_lt_iff.mpr hless⟩
    exact h ⟨nearestRank, currentRank, hnearest, hcurrentRank,
      compareRank_eq_lt_iff.mpr (hle.trans_lt (compareRank_eq_lt_iff.mp hlt))⟩

/-- The loop ends beside no nearer neighbour exactly when it follows the exact descent. -/
theorem settled_iff_unambiguous (hvalid : index.Valid S dimension)
    (hquery : Comparable S index.metric dimension query) (hcurrent : index.InLayer layer current)
    {iterations found : ℕ}
    (h : greedySearchLoop S index query layer control iterations current = .ok found) :
    Settled S index query layer found ↔ Unambiguous S index query layer current := by
  induction iterations generalizing current with
  | zero => cases h
  | succ iterations ih =>
    obtain ⟨⟨⟩, -, h⟩ := except_bind_ok.mp h
    obtain ⟨currentRank, hcurrentRank, h⟩ := except_bind_ok.mp h
    obtain ⟨neighbors, hneighbors, h⟩ := except_bind_ok.mp h
    obtain ⟨position, hposition, h⟩ := except_bind_ok.mp h
    cases hcandidate : neighbors[position]? with
    | none =>
      rw [hcandidate] at h
      cases h
      refine iff_of_true ?_ (unambiguous_of_none hneighbors hposition fun next hnext => ?_)
      · rintro neighbor ⟨others, hothers, hmem⟩
        rw [hneighbors] at hothers
        cases hothers
        rw [nearest_none hposition hcandidate] at hmem
        cases hmem
      · rw [hcandidate] at hnext
        cases hnext
    | some candidate =>
      rw [hcandidate] at h
      obtain ⟨candidateRank, hcandidateRank, h⟩ := except_bind_ok.mp h
      split at h
      · rename_i himproves
        have himproving : Improving S index query current candidate :=
          ⟨candidateRank, currentRank, hcandidateRank, hcurrentRank, himproves⟩
        have hlayer := hvalid.inLayer_of_reachable hcurrent
          (Relation.ReflTransGen.single ⟨neighbors, hneighbors, List.mem_of_getElem? hcandidate⟩)
        rw [unambiguous_iff_of_improves hneighbors hposition hcandidate himproving]
        exact ih hlayer h
      · rename_i himproves
        cases h
        rw [settled_of_candidate hneighbors hvalid hquery hcurrent hposition hcandidate]
        constructor
        · intro hprecedes
          refine unambiguous_of_none hneighbors hposition fun next hnext => ?_
          rw [hcandidate] at hnext
          cases hnext
          exact hprecedes
        · intro hunambiguous hprecedes
          obtain ⟨nextRank, rank, hnext, hrank, hgoes⟩ := hunambiguous found candidate
            Relation.ReflTransGen.refl
            ⟨neighbors, position, hneighbors, hposition, hcandidate, hprecedes⟩
          rw [hcandidateRank] at hnext
          rw [hcurrentRank] at hrank
          cases hnext
          cases hrank
          exact himproves hgoes

end Greedy

/-- A descent is unambiguous where `<` tells apart what the order does. -/
theorem unambiguous_of_lessThan {start : ℕ}
    (h : ∀ (source target : ℕ) (value other : S), index.nodeDistance query source = .ok value →
      index.nodeDistance query target = .ok other → other < value →
        ScoreArith.lessThan other value) : Unambiguous S index query layer start := by
  rintro source target - ⟨-, -, -, -, -, targetRank, sourceRank, htarget, hsource, hlt⟩
  obtain ⟨other, hother, htargetRank⟩ := except_bind_ok.mp htarget
  obtain ⟨value, hvalue, hsourceRank⟩ := except_bind_ok.mp hsource
  obtain ⟨targetNode, -, htargetRank⟩ := except_bind_ok.mp htargetRank
  obtain ⟨sourceNode, -, hsourceRank⟩ := except_bind_ok.mp hsourceRank
  refine ⟨targetRank, sourceRank, htarget, hsource, ?_⟩
  have hlex := compareRank_eq_lt_iff.mp hlt
  rw [Prod.Lex.toLex_lt_toLex] at hlex
  obtain rfl := Except.ok.inj htargetRank
  obtain rfl := Except.ok.inj hsourceRank
  simp only [improves, Bool.or_eq_true, Bool.and_eq_true, decide_eq_true_eq]
  exact hlex.imp_left (h source target value other hvalue hother)

/-- Only distances that are zero or NaN can mislead the greedy search. -/
theorem unambiguous_of_numbers {start : ℕ}
    (hnumber : ∀ (position : ℕ) (value : F32), index.nodeDistance query position = .ok value →
      value.isNan = false ∧ value.isZero = false) : Unambiguous F32 index query layer start := by
  refine unambiguous_of_lessThan fun source target value other hvalue hother hlt => ?_
  obtain ⟨hnan, hzero⟩ := hnumber source value hvalue
  refine F32.lessThan_of_totalKey_lt hlt (hnumber target other hother).1 hnan fun h => ?_
  rw [hzero] at h
  cases h.2

/-! ### The search of a layer -/

/-- No node precedes an earlier one. -/
def Ordered (S : Type) [ScoreArith S] (index : HnswIndex) (query : List F32)
    (positions : List ℕ) : Prop :=
  positions.Pairwise fun left right => ¬Precedes S index query right left

theorem ordered_sortByDistance {candidates sorted : List ℕ}
    (h : sortByDistance S index query candidates = .ok sorted) :
    Ordered S index query sorted := by
  unfold sortByDistance at h
  split at h
  · rename_i hfew
    cases h
    match candidates, hfew with
    | [], _ => exact List.Pairwise.nil
    | [single], _ => exact List.pairwise_singleton ..
  · obtain ⟨entries, hentries, h⟩ := except_bind_ok.mp h
    cases h
    have htrans (first second third : Rank S × ℕ) : (compareRank first.1 second.1).isLE →
        (compareRank second.1 third.1).isLE → (compareRank first.1 third.1).isLE :=
      compareRank_trans
    have htotal (left right : Rank S × ℕ) : ((compareRank left.1 right.1).isLE ||
        (compareRank right.1 left.1).isLE) = true := by
      rw [Bool.or_eq_true]
      exact compareRank_total left.1 right.1
    have hsorted : (entries.mergeSort fun left right =>
        (compareRank left.1 right.1).isLE).Pairwise fun left right =>
          (compareRank left.1 right.1).isLE :=
      List.pairwise_mergeSort htrans htotal entries
    rw [Ordered, List.pairwise_map]
    refine hsorted.imp_of_mem fun {left right} hleft hright hle => ?_
    rintro ⟨rightRank, leftRank, hrightRank, hleftRank, hlt⟩
    rw [rankOf_of_ranked hentries right (List.mem_mergeSort.mp hright)] at hrightRank
    rw [rankOf_of_ranked hentries left (List.mem_mergeSort.mp hleft)] at hleftRank
    cases hrightRank
    cases hleftRank
    exact not_compareRank_lt hle hlt

/-- The best nodes so far are ordered and fit. -/
structure LayerSearch.Bounded (S : Type) [ScoreArith S] (index : HnswIndex) (query : List F32)
    (ef : ℕ) (state : LayerSearch) : Prop where
  ordered : Ordered S index query state.best
  length_le : state.best.length ≤ ef

theorem LayerSearch.Bounded.visit {ef neighbor : ℕ} {state next : LayerSearch}
    (h : state.Bounded S index query ef)
    (hnext : visitNeighbor S index query ef state neighbor = .ok next) :
    next.Bounded S index query ef := by
  rcases visitNeighbor_ok hnext with ⟨-, rfl⟩ | ⟨-, sorted, hsorted, rfl⟩
  · exact h
  · exact ⟨(ordered_sortByDistance hsorted).sublist (List.take_sublist ..),
      List.length_take_le ..⟩

theorem searchLayer_bounded {ef entry : ℕ} {control : QueryControl} {found : List ℕ}
    (hef : 0 < ef)
    (h : searchLayerControlled S index query entry ef layer control = .ok found) :
    Ordered S index query found ∧ found.length ≤ ef := by
  obtain ⟨⟨⟩, -, h⟩ := except_bind_ok.mp h
  have hstart : LayerSearch.Bounded S index query ef ⟨[entry], [entry], [entry]⟩ :=
    ⟨List.pairwise_singleton .., hef⟩
  have hstep : ∀ state current rest neighbors next, LayerSearch.Bounded S index query ef state →
      Expands S index query ef layer state current rest neighbors next →
      LayerSearch.Bounded S index query ef next := by
    intro state current rest neighbors next hstate hexpands
    have hpopped : LayerSearch.Bounded S index query ef { state with frontier := rest } :=
      ⟨hstate.ordered, hstate.length_le⟩
    exact except_foldlM_keeps (fun _ _ _ _ hmiddle hlast => hmiddle.visit hlast) hpopped
      hexpands.visits
  obtain ⟨final, hfinal, -, rfl⟩ := searchLayerLoop_keeps hstep hstart h
  exact ⟨hfinal.ordered, hfinal.length_le⟩

/-! ### Both searches -/

/-- A computation under a control fails with its error, and otherwise returns. -/
def Answers {α : Type} (control : QueryControl) (result : Except HnswError α)
    (post : α → Prop) : Prop :=
  match control.check with
  | .ok () => ∃ value, result = .ok value ∧ post value
  | .error error => result = .error (.control error)

/-- What the two searches of a layer return from a node of it. -/
structure Traverses (S : Type) [ScoreArith S] (index : HnswIndex) (query : List F32)
    (control : QueryControl) (layer ef entry : ℕ) : Prop where
  greedy : Answers control (greedySearchLevelControlled S index query entry layer control)
    fun found => index.InLayer layer found ∧ Settled S index query layer found
  search : Answers control (searchLayerControlled S index query entry ef layer control)
    fun best => best.length ≤ ef ∧ best.Nodup ∧ Ordered S index query best ∧
      ∀ position ∈ best, index.Reachable layer entry position

section Both

variable {control : QueryControl} {ef entry topK : ℕ}

theorem searchLayer_answers (hvalid : index.Valid S dimension)
    (hquery : Comparable S index.metric dimension query) (hentry : index.InLayer layer entry)
    (hef : 0 < ef) :
    Answers control (searchLayerControlled S index query entry ef layer control)
      fun best => best.length ≤ ef ∧ best.Nodup ∧ Ordered S index query best ∧
        ∀ position ∈ best, index.Reachable layer entry position := by
  unfold Answers
  cases hcontrol : control.check with
  | error error =>
    rw [searchLayerControlled, checkControl, hcontrol]
    rfl
  | ok checked =>
    obtain ⟨best, hbest, -⟩ := hvalid.searchLayer_ok hquery hcontrol ef hentry
    obtain ⟨hordered, hlength⟩ := searchLayer_bounded hef hbest
    obtain ⟨hdistinct, hreachable⟩ := searchLayer_explores hbest
    exact ⟨best, hbest, hlength, hdistinct, hordered, hreachable⟩

theorem greedySearch_answers_iff (hvalid : index.Valid S dimension)
    (hquery : Comparable S index.metric dimension query) (hentry : index.InLayer layer entry) :
    Answers control (greedySearchLevelControlled S index query entry layer control)
        (fun found => index.InLayer layer found ∧ Settled S index query layer found) ↔
      (control.check = .ok () → Unambiguous S index query layer entry) := by
  unfold Answers
  cases hcontrol : control.check with
  | error error =>
    refine iff_of_true ?_ nofun
    obtain ⟨rounds, hrounds⟩ := Nat.exists_eq_add_of_lt hentry.lt
    rw [greedySearchLevelControlled, hrounds, greedySearchLoop, checkControl, hcontrol]
    rfl
  | ok checked =>
    obtain ⟨rank, hrank, -⟩ := hvalid.rankOf_ok hquery hentry
    obtain ⟨found, hfound, hlayer⟩ := hvalid.greedySearchLoop_ok hquery hcontrol hentry hrank
      (card_below_lt_length hrank hentry.lt)
    have hsettled := settled_iff_unambiguous hvalid hquery hentry hfound
    constructor
    · rintro ⟨other, hother, -, hsettles⟩ -
      rw [greedySearchLevelControlled, hfound] at hother
      cases hother
      exact hsettled.mp hsettles
    · intro hunambiguous
      exact ⟨found, hfound, hlayer, hsettled.mpr (hunambiguous rfl)⟩

/-- On an accepted graph both searches end, and the greedy one stops beside no nearer
neighbour exactly when `<` never tells it to stop on the exact descent. -/
theorem traverses_iff (haccepted : fromNativeGraph S graph = .ok index)
    (hquery : index.validateQuery S query topK = .ok ()) (hentry : index.InLayer layer entry)
    (hef : 0 < ef) :
    Traverses S index query control layer ef entry ↔
      (control.check = .ok () → Unambiguous S index query layer entry) := by
  have hnodes : index.nodes ≠ [] := List.length_pos_iff.mp (Nat.zero_lt_of_lt hentry.lt)
  obtain ⟨dimension, hvalid, hcomparable⟩ := comparable_of_accepted haccepted hquery hnodes
  have hgreedy : _ ↔ (control.check = .ok () → Unambiguous S index query layer entry) :=
    greedySearch_answers_iff hvalid hcomparable hentry
  constructor
  · intro h
    exact hgreedy.mp h.greedy
  · intro h
    exact ⟨hgreedy.mpr h, searchLayer_answers hvalid hcomparable hentry hef⟩

end Both

/-! ### Two zeros -/

/-- The vectors `[-1e-45, 4.0]` and `[0.0, 1.0]`, whose cosines with `[1.0, 0.0]` are the
two zeros. -/
def zerosGraph : HnswIndex :=
  { collectionId := ⟨"c", by decide⟩
    metric := .cosine
    config := ⟨1, 1, 1⟩
    dimension := some 2
    nodes :=
      [⟨⟨.unsigned 2, ⟨[⟨0x80000001⟩, ⟨0x40800000⟩], by decide⟩, .empty, 1⟩, 1, [[1], [1]]⟩,
        ⟨⟨.unsigned 1, ⟨[⟨0⟩, ⟨0x3f800000⟩], by decide⟩, .empty, 2⟩, 1, [[0], [0]]⟩]
    entryPoint := some 0
    maxLevel := 1 }

def axisQuery : List F32 := [⟨0x3f800000⟩, ⟨0⟩]

theorem zerosGraph_accepted : fromNativeGraph F32 zerosGraph = .ok zerosGraph := by
  have hconfig : zerosGraph.config.validate = .ok zerosGraph.config := by decide
  have hcheck : checkNonEmpty F32 zerosGraph = .ok () := by decide +kernel
  have hnodes : zerosGraph.nodes ≠ [] := List.cons_ne_nil _ _
  simp only [fromNativeGraph, hconfig, except_ok_bind, if_neg hnodes, hcheck]
  rfl

theorem axisQuery_valid : zerosGraph.validateQuery F32 axisQuery 1 = .ok () := by decide +kernel

theorem zerosGraph_entry : zerosGraph.InLayer 1 0 := ⟨_, rfl, le_rfl⟩

/-- The nearer neighbour is passed over: `-0.0 < 0.0` does not hold. -/
theorem not_traverses_zeros : fromNativeGraph F32 zerosGraph = .ok zerosGraph ∧
    zerosGraph.validateQuery F32 axisQuery 1 = .ok () ∧ zerosGraph.InLayer 1 0 ∧
      ¬Traverses F32 zerosGraph axisQuery .unbounded 1 1 0 := by
  refine ⟨zerosGraph_accepted, axisQuery_valid, zerosGraph_entry, fun h => ?_⟩
  obtain ⟨found, hfound, -, hsettled⟩ := h.greedy
  have hstays : greedySearchLevelControlled F32 zerosGraph axisQuery 0 1 .unbounded = .ok 0 := by
    decide +kernel
  rw [hstays] at hfound
  cases hfound
  refine hsettled 1 ⟨[1], by decide, List.mem_singleton_self 1⟩ ?_
  exact ⟨(F32.negZero, .unsigned 1), (F32.zero, .unsigned 2), by decide +kernel,
    by decide +kernel, by decide +kernel⟩

theorem traverses_zeros_iff : Traverses F32 zerosGraph axisQuery .unbounded 1 1 0 ↔
    (QueryControl.unbounded.check = .ok () → Unambiguous F32 zerosGraph axisQuery 1 0) :=
  traverses_iff zerosGraph_accepted axisQuery_valid zerosGraph_entry Nat.one_pos

end HnswIndex

end Ketebe
