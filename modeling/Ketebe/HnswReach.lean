import Ketebe.HnswEdges
import Ketebe.SearchPages

/-!
What a layer search finds when nothing is cut off. Every edge out of a visited
node leads to a visited node, or the node still waits in the frontier; with room
for all nodes the search therefore returns all that its entry leads to.
-/
namespace Ketebe

open Lib.ByteCodec

namespace HnswIndex

variable {S : Type} [ScoreArith S] {index index' : HnswIndex} {query : List F32} {layer : ℕ}
  {control : QueryControl}

/-! ### The frontier -/

theorem compareRank_total (left right : Rank S) :
    (compareRank left right).isLE ∨ (compareRank right left).isLE := by
  have htrans : Std.TransCmp (compareRank : Rank S → Rank S → Ordering) :=
    inferInstanceAs (Std.TransCmp (compareLex (compareOn Prod.fst) (compareOn Prod.snd)))
  rcases hcmp : compareRank left right with _ | _ | _
  · exact .inl rfl
  · exact .inl rfl
  · have hback : compareRank right left = .lt := Std.OrientedCmp.gt_iff_lt.mp hcmp
    rw [hback]
    exact .inr rfl

theorem compareRank_trans {a b c : Rank S} (hab : (compareRank a b).isLE)
    (hbc : (compareRank b c).isLE) : (compareRank a c).isLE := by
  have htrans : Std.TransCmp (compareRank : Rank S → Rank S → Ordering) :=
    inferInstanceAs (Std.TransCmp (compareLex (compareOn Prod.fst) (compareOn Prod.snd)))
  exact Std.TransCmp.isLE_trans hab hbc

/-- Some entry is smallest. -/
theorem exists_minimal {entries : List (Rank S × ℕ)} (h : entries ≠ []) :
    ∃ entry ∈ entries, ∀ other ∈ entries, (compareRank entry.1 other.1).isLE := by
  induction entries with
  | nil => exact absurd rfl h
  | cons head rest ih =>
    have hself : (compareRank head.1 head.1).isLE := (compareRank_total _ _).elim id id
    by_cases hrest : rest = []
    · subst hrest
      exact ⟨head, List.mem_cons_self .., List.forall_mem_singleton.mpr hself⟩
    · obtain ⟨entry, hentry, hleast⟩ := ih hrest
      rcases compareRank_total head.1 entry.1 with hle | hle
      · refine ⟨head, List.mem_cons_self .., List.forall_mem_cons.mpr ⟨hself, ?_⟩⟩
        exact fun other hother => compareRank_trans hle (hleast other hother)
      · exact ⟨entry, List.mem_cons_of_mem _ hentry, List.forall_mem_cons.mpr ⟨hle, hleast⟩⟩

theorem minPosition_lt {entries : List (Rank S × ℕ)} (h : entries ≠ []) :
    minPosition entries < entries.length := by
  obtain ⟨entry, hentry, hleast⟩ := exists_minimal h
  apply List.findIdx_lt_length_of_exists
  exact ⟨entry, hentry, List.all_eq_true.mpr hleast⟩

/-- Nothing is popped only from an empty frontier. -/
theorem popNearest_none {frontier : List ℕ}
    (h : popNearest S index query frontier = .ok none) : frontier = [] := by
  obtain ⟨position, hposition, h⟩ := except_bind_ok.mp h
  have hbound : frontier.length ≤ position := by
    cases hcurrent : frontier[position]? with
    | none => exact List.getElem?_eq_none_iff.mp hcurrent
    | some current =>
      rw [hcurrent] at h
      cases h
  by_contra hne
  have hpos := List.length_pos_iff.mpr hne
  unfold nearest at hposition
  split at hposition
  · cases hposition
    omega
  · obtain ⟨entries, hentries, hposition⟩ := except_bind_ok.mp hposition
    cases hposition
    have hlength := congrArg List.length (ranked_snd hentries)
    rw [List.length_map] at hlength
    have hnonempty : entries ≠ [] := List.length_pos_iff.mp (by omega)
    have hlt := minPosition_lt hnonempty
    omega

/-! ### A search without cuts -/

/-- Every edge out of a visited node leads to a visited node, or the node is still
in the frontier. All visited nodes are kept. -/
structure LayerSearch.Closed (index : HnswIndex) (layer entry : ℕ) (state : LayerSearch) :
    Prop where
  explores : state.Explores index layer entry
  entry : entry ∈ state.visited
  edges : ∀ source ∈ state.visited, source ∈ state.frontier ∨
    ∀ target, index.Edge layer source target → target ∈ state.visited
  kept : ∀ position ∈ state.visited, position ∈ state.best

theorem Valid.inLayer_of_reachable {dimension entry position : ℕ} (hvalid : index.Valid S dimension)
    (hentry : index.InLayer layer entry) (h : index.Reachable layer entry position) :
    index.InLayer layer position := by
  induction h with
  | refl => exact hentry
  | tail _ hedge _ =>
    obtain ⟨neighbors, hneighbors, htarget⟩ := hedge
    obtain ⟨node, hnode, hlist⟩ := getNeighbors_ok_iff.mp hneighbors
    exact hvalid.edges node (List.mem_of_getElem? hnode) layer neighbors hlist _ htarget

/-- Distinct positions of a graph are not more than its nodes. -/
theorem length_le_of_inLayer {positions : List ℕ} (hdistinct : positions.Nodup)
    (h : ∀ position ∈ positions, index.InLayer layer position) :
    positions.length ≤ index.nodes.length := by
  have hsubset : positions ⊆ List.range index.nodes.length := fun position hposition =>
    List.mem_range.mpr (h position hposition).lt
  simpa only [List.length_range] using (hdistinct.subperm hsubset).length_le

/-- As many distinct positions as there are nodes are all of them. -/
theorem mem_of_length_le {positions : List ℕ} (hdistinct : positions.Nodup)
    (h : ∀ position ∈ positions, index.InLayer layer position)
    (hlength : index.nodes.length ≤ positions.length) {position : ℕ}
    (hposition : index.InLayer layer position) : position ∈ positions := by
  have hsubset : positions ⊆ List.range index.nodes.length := fun position hposition =>
    List.mem_range.mpr (h position hposition).lt
  have hperm : positions.Perm (List.range index.nodes.length) :=
    (hdistinct.subperm hsubset).perm_of_length_le (by rwa [List.length_range])
  exact hperm.mem_iff.mpr (List.mem_range.mpr hposition.lt)

theorem LayerSearch.Closed.visit {dimension ef entry neighbor : ℕ} {state next : LayerSearch}
    (hvalid : index.Valid S dimension) (hentry : index.InLayer layer entry)
    (hroom : index.nodes.length ≤ ef) (h : state.Closed index layer entry)
    (hneighbor : index.Reachable layer entry neighbor)
    (hnext : visitNeighbor S index query ef state neighbor = .ok next) :
    next.Closed index layer entry := by
  have hexplores := h.explores.visit hneighbor hnext
  rcases visitNeighbor_ok hnext with ⟨-, rfl⟩ | ⟨hnew, sorted, hsorted, rfl⟩
  · exact h
  have hperm := sortByDistance_perm hsorted
  have hsortedDistinct : sorted.Nodup := by
    rw [hperm.nodup_iff]
    apply List.nodup_append.mpr
    refine ⟨h.explores.distinct, List.nodup_singleton neighbor, ?_⟩
    intro position hposition other hother heq
    rw [heq, List.mem_singleton.mp hother] at hposition
    exact hnew (h.explores.best neighbor hposition)
  have hsortedLayer : ∀ position ∈ sorted, index.InLayer layer position := by
    intro position hposition
    apply hvalid.inLayer_of_reachable hentry
    rcases List.mem_append.mp (hperm.mem_iff.mp hposition) with hold | hsingle
    · exact h.explores.reachable position (h.explores.best position hold)
    · rwa [List.mem_singleton.mp hsingle]
  have hall : sorted.take ef = sorted :=
    List.take_of_length_le ((length_le_of_inLayer hsortedDistinct hsortedLayer).trans hroom)
  refine ⟨hexplores, List.mem_cons_of_mem _ h.entry, ?_, ?_⟩
  · intro source hsource
    rcases List.mem_cons.mp hsource with rfl | hsource
    · exact .inl (List.mem_append_right _ (List.mem_singleton_self _))
    · rcases h.edges source hsource with hfrontier | hedges
      · exact .inl (List.mem_append_left _ hfrontier)
      · exact .inr fun target hedge => List.mem_cons_of_mem _ (hedges target hedge)
  · show ∀ position ∈ neighbor :: state.visited, position ∈ sorted.take ef
    rw [hall]
    intro position hposition
    rw [hperm.mem_iff, List.mem_append]
    rcases List.mem_cons.mp hposition with rfl | hold
    · exact .inr (List.mem_singleton_self _)
    · exact .inl (h.kept position hold)

/-- A visit does not look at the frontier. -/
theorem visitNeighbor_frontier {ef neighbor current : ℕ} {state next : LayerSearch}
    (h : visitNeighbor S index query ef state neighbor = .ok next) :
    visitNeighbor S index query ef { state with frontier := current :: state.frontier } neighbor =
      .ok { next with frontier := current :: next.frontier } := by
  rcases visitNeighbor_ok h with ⟨hvisited, rfl⟩ | ⟨hnew, sorted, hsorted, rfl⟩
  · exact if_pos hvisited
  · rw [visitNeighbor, if_neg hnew, hsorted]
    rfl

theorem visitNeighbor_visited {ef neighbor : ℕ} {state next : LayerSearch}
    (h : visitNeighbor S index query ef state neighbor = .ok next) :
    neighbor ∈ next.visited ∧ state.visited ⊆ next.visited := by
  rcases visitNeighbor_ok h with ⟨hvisited, rfl⟩ | ⟨-, sorted, -, rfl⟩
  · exact ⟨hvisited, fun _ hposition => hposition⟩
  · exact ⟨List.mem_cons_self .., List.subset_cons_self ..⟩

theorem visitNeighbors_visited {ef : ℕ} {neighbors : List ℕ} {state next : LayerSearch}
    (h : neighbors.foldlM (visitNeighbor S index query ef) state = .ok next) :
    neighbors ⊆ next.visited ∧ state.visited ⊆ next.visited := by
  induction neighbors generalizing state with
  | nil =>
    cases h
    exact ⟨List.nil_subset _, List.Subset.refl _⟩
  | cons head rest ih =>
    rw [List.foldlM_cons] at h
    obtain ⟨middle, hmiddle, h⟩ := except_bind_ok.mp h
    obtain ⟨hhead, hstate⟩ := visitNeighbor_visited hmiddle
    obtain ⟨hrest, hvisited⟩ := ih h
    exact ⟨List.cons_subset.mpr ⟨hvisited hhead, hrest⟩, fun _ hposition => hvisited (hstate hposition)⟩

/-- While the neighbours of a node are visited, the node counts as waiting. -/
theorem LayerSearch.Closed.expand {dimension ef entry current : ℕ} {state next : LayerSearch}
    {rest neighbors : List ℕ} (hvalid : index.Valid S dimension)
    (hentry : index.InLayer layer entry) (hroom : index.nodes.length ≤ ef)
    (h : state.Closed index layer entry)
    (hexpands : Expands S index query ef layer state current rest neighbors next) :
    next.Closed index layer entry := by
  have hperm := popNearest_some hexpands.pop
  have hcurrent := h.explores.reachable current
    (h.explores.frontier current (hperm.mem_iff.mpr (List.mem_cons_self ..)))
  have hwaiting : LayerSearch.Closed index layer entry
      { state with frontier := current :: rest } := by
    refine ⟨⟨h.explores.reachable, ?_, h.explores.best, h.explores.distinct⟩, h.entry, ?_, h.kept⟩
    · exact fun position hposition => h.explores.frontier position (hperm.mem_iff.mpr hposition)
    · exact fun source hsource => (h.edges source hsource).imp_left hperm.mem_iff.mp
  have hkeeps : ∀ neighbor ∈ neighbors, ∀ middle last : LayerSearch,
      LayerSearch.Closed index layer entry { middle with frontier := current :: middle.frontier } →
      visitNeighbor S index query ef middle neighbor = .ok last →
      LayerSearch.Closed index layer entry { last with frontier := current :: last.frontier } := by
    intro neighbor hneighbor middle last hmiddle hlast
    exact hmiddle.visit hvalid hentry hroom
      (hcurrent.tail ⟨neighbors, hexpands.adjacent, hneighbor⟩) (visitNeighbor_frontier hlast)
  have hlast := except_foldlM_keeps hkeeps hwaiting hexpands.visits
  have hneighbors := (visitNeighbors_visited hexpands.visits).1
  refine ⟨h.explores.expand hexpands, hlast.entry, ?_, hlast.kept⟩
  intro source hsource
  rcases hlast.edges source hsource with hfrontier | hedges
  · rcases List.mem_cons.mp hfrontier with rfl | hfrontier
    · right
      rintro target ⟨found, hfound, htarget⟩
      rw [hexpands.adjacent] at hfound
      cases hfound
      exact hneighbors htarget
    · exact .inl hfrontier
  · exact .inr hedges

theorem LayerSearch.closed_start (index : HnswIndex) (layer entry : ℕ) :
    LayerSearch.Closed index layer entry ⟨[entry], [entry], [entry]⟩ :=
  ⟨LayerSearch.explores_start index layer entry, List.mem_singleton_self _,
    fun _ hsource => .inl hsource, fun _ hposition => hposition⟩

theorem length_of_isExhausted {ef current : ℕ} {best : List ℕ}
    (h : isExhausted S index query ef best current = .ok true) : ef ≤ best.length := by
  by_contra hless
  unfold isExhausted at h
  cases hlast : best.getLast? with
  | none =>
    simp only [hlast, if_neg hless] at h
    cases h
  | some last =>
    simp only [hlast, if_neg hless] at h
    obtain ⟨worst, -, h⟩ := except_bind_ok.mp h
    cases h

/-- With room for all nodes the search returns exactly what its entry leads to. -/
theorem Valid.searchLayer_reaches {dimension ef entry : ℕ} {found : List ℕ}
    (hvalid : index.Valid S dimension) (hentry : index.InLayer layer entry)
    (hroom : index.nodes.length ≤ ef)
    (h : searchLayerControlled S index query entry ef layer control = .ok found) :
    found.Nodup ∧ ∀ position, position ∈ found ↔ index.Reachable layer entry position := by
  obtain ⟨hdistinct, hreachable⟩ := searchLayer_explores h
  obtain ⟨⟨⟩, -, h⟩ := except_bind_ok.mp h
  have hstep : ∀ state current rest neighbors next, LayerSearch.Closed index layer entry state →
      Expands S index query ef layer state current rest neighbors next →
      LayerSearch.Closed index layer entry next :=
    fun _ _ _ _ _ hstate hexpands => hstate.expand hvalid hentry hroom hexpands
  obtain ⟨final, hfinal, hends, rfl⟩ :=
    searchLayerLoop_keeps hstep (LayerSearch.closed_start index layer entry) h
  have hwithin : ∀ position ∈ final.best, index.InLayer layer position := fun position hposition =>
    hvalid.inLayer_of_reachable hentry (hreachable position hposition)
  refine ⟨hdistinct, fun position => ⟨hreachable position, fun hposition => ?_⟩⟩
  rcases hends with hempty | ⟨current, rest, -, hexhausted⟩
  · apply hfinal.kept
    have hfrontier := popNearest_none hempty
    induction hposition with
    | refl => exact hfinal.entry
    | tail _ hedge ih =>
      rcases hfinal.edges _ ih with hwaits | hedges
      · rw [hfrontier] at hwaits
        cases hwaits
      · exact hedges _ hedge
  · exact mem_of_length_le hdistinct hwithin (hroom.trans (length_of_isExhausted hexhausted))
      (hvalid.inLayer_of_reachable hentry hposition)

/-! ### Lists that are never cut -/

/-- Every two of the first nodes are linked both ways in the layer. -/
def Complete (index : HnswIndex) (layer bound : ℕ) : Prop :=
  ∀ source target, source ≠ target → source < bound → target < bound →
    index.InLayer layer source → index.InLayer layer target → index.Edge layer source target

theorem dedupConsecutive_of_nodup {values : List ℕ} (h : values.Nodup) :
    Lib.SortedSet.dedupConsecutive values = values := by
  induction values using Lib.SortedSet.dedupConsecutive.induct with
  | case1 => rfl
  | case2 value => rfl
  | case3 value rest ih => exact absurd (List.mem_cons_self ..) (List.nodup_cons.mp h).1
  | case4 value other rest hne ih =>
    rw [Lib.SortedSet.dedupConsecutive, if_neg hne, ih (List.nodup_cons.mp h).2]

theorem selectNeighbors_perm {candidates selected : List ℕ} {limit : ℕ}
    (h : selectNeighbors S index query candidates limit = .ok selected)
    (hdistinct : candidates.Nodup) (hlength : candidates.length ≤ limit) :
    selected.Perm candidates := by
  obtain ⟨sorted, hsorted, h⟩ := except_bind_ok.mp h
  cases h
  have hperm := sortByDistance_perm hsorted
  rw [dedupConsecutive_of_nodup (hperm.nodup_iff.mpr hdistinct),
    List.take_of_length_le (by rwa [hperm.length_eq])]
  exact hperm

theorem edge_setNeighbors_iff {position source target : ℕ} {own neighbors : List ℕ}
    (hown : index.getNeighbors position layer = .ok own) :
    (index.setNeighbors position layer neighbors).Edge layer source target ↔
      if source = position then target ∈ neighbors else index.Edge layer source target := by
  unfold Edge
  rw [getNeighbors_setNeighbors]
  by_cases hsource : position = source
  · subst hsource
    simp only [and_self, if_true, hown, Except.map, Except.ok.injEq, exists_eq_left']
  · rw [if_neg fun h => hsource h.1, if_neg (Ne.symm hsource)]

/-- Room for one more: a node and its neighbours are not all nodes. -/
theorem length_lt_of_inLayer {positions : List ℕ} {position : ℕ} (hdistinct : positions.Nodup)
    (hnew : position ∉ positions) (hposition : index.InLayer layer position)
    (h : ∀ other ∈ positions, index.InLayer layer other) :
    positions.length < index.nodes.length :=
  length_le_of_inLayer (List.nodup_cons.mpr ⟨hnew, hdistinct⟩)
    (List.forall_mem_cons.mpr ⟨hposition, h⟩)

theorem connect_adds {dimension newIndex existing : ℕ} (hvalid : index.Valid S dimension)
    (hwired : index.Wired index.config.m) (hroom : index.nodes.length ≤ index.config.m + 1)
    (hne : existing ≠ newIndex) (hexisting : index.InLayer layer existing)
    (hnew : index.InLayer layer newIndex)
    (h : connect S index newIndex layer existing = .ok index') :
    (∀ source target, index.Edge layer source target → index'.Edge layer source target) ∧
      index'.Edge layer existing newIndex := by
  obtain ⟨own, hown, hlayer⟩ := hvalid.getNeighbors_ok hexisting
  obtain ⟨node, hnode, h⟩ := except_bind_ok.mp h
  have hlevel : ¬node.level < layer := by
    obtain ⟨other, hother, hlevel⟩ := hexisting
    rw [getNode, hother] at hnode
    cases hnode
    exact not_lt.mpr hlevel
  rw [if_neg hlevel] at h
  obtain ⟨neighbors, hneighbors, h⟩ := except_bind_ok.mp h
  obtain ⟨selected, hselected, h⟩ := except_bind_ok.mp h
  cases h
  rw [hown] at hneighbors
  cases hneighbors
  obtain ⟨hdistinct, hself, -⟩ := hwired existing layer own hown
  have hcandidates : ∃ candidates, candidates =
      (if newIndex ∈ own then own else own ++ [newIndex]) ∧ candidates.Nodup ∧
        existing ∉ candidates ∧ (∀ position ∈ candidates, index.InLayer layer position) ∧
          newIndex ∈ candidates ∧ own ⊆ candidates := by
    by_cases hknown : newIndex ∈ own
    · exact ⟨own, (if_pos hknown).symm, hdistinct, hself, hlayer, hknown, List.Subset.refl _⟩
    · refine ⟨own ++ [newIndex], (if_neg hknown).symm, ?_, ?_, ?_, ?_, List.subset_append_left ..⟩
      · apply List.nodup_append.mpr
        refine ⟨hdistinct, List.nodup_singleton _, ?_⟩
        intro position hposition other hother heq
        rw [heq, List.mem_singleton.mp hother] at hposition
        exact hknown hposition
      · simp [hself, hne]
      · intro position hposition
        rcases List.mem_append.mp hposition with hold | hsingle
        · exact hlayer position hold
        · rwa [List.mem_singleton.mp hsingle]
      · exact List.mem_append_right _ (List.mem_singleton_self _)
  obtain ⟨candidates, heq, hcandidatesDistinct, hother, hwithin, hmem, hsubset⟩ := hcandidates
  rw [← heq] at hselected
  have hlt := length_lt_of_inLayer hcandidatesDistinct hother hexisting hwithin
  have hperm := selectNeighbors_perm hselected hcandidatesDistinct (by omega)
  refine ⟨fun source target hedge => ?_, ?_⟩
  · rw [edge_setNeighbors_iff hown]
    by_cases hsource : source = existing
    · subst hsource
      obtain ⟨found, hfound, htarget⟩ := hedge
      rw [hown] at hfound
      cases hfound
      rw [if_pos rfl]
      exact hperm.mem_iff.mpr (hsubset htarget)
    · rwa [if_neg hsource]
  · rw [edge_setNeighbors_iff hown, if_pos rfl]
    exact hperm.mem_iff.mpr hmem

theorem connectAll_adds {dimension newIndex : ℕ} {selected : List ℕ}
    (hvalid : index.Valid S dimension) (hwired : index.Wired index.config.m)
    (hroom : index.nodes.length ≤ index.config.m + 1) (hne : newIndex ∉ selected)
    (hselected : ∀ existing ∈ selected, index.InLayer layer existing)
    (hnew : index.InLayer layer newIndex)
    (h : selected.foldlM (fun index existing => connect S index newIndex layer existing) index =
      .ok index') :
    (∀ source target, index.Edge layer source target → index'.Edge layer source target) ∧
      ∀ existing ∈ selected, index'.Edge layer existing newIndex := by
  induction selected generalizing index with
  | nil =>
    cases h
    exact ⟨fun _ _ hedge => hedge, nofun⟩
  | cons existing rest ih =>
    rw [List.foldlM_cons] at h
    obtain ⟨middle, hmiddle, h⟩ := except_bind_ok.mp h
    obtain ⟨hhead, hrest⟩ := List.forall_mem_cons.mp hselected
    have hexisting : existing ≠ newIndex := fun heq => hne (heq ▸ List.mem_cons_self ..)
    obtain ⟨hkept, hadded⟩ := connect_adds hvalid hwired hroom hexisting hhead hnew hmiddle
    obtain ⟨other, hother, hvalid', hrewires⟩ := hvalid.connect_ok hnew hhead
    rw [hmiddle] at hother
    cases hother
    have hrelinks := connect_relinks hexisting hmiddle
    obtain ⟨hlater, hall⟩ := ih hvalid' (by rw [hrelinks.config]; exact hrelinks.wired hwired)
      (by rwa [hrelinks.config, hrewires.length]) (fun hmem => hne (List.mem_cons_of_mem _ hmem))
      (fun position hposition => hrewires.inLayer_iff.mpr (hrest position hposition))
      (hrewires.inLayer_iff.mpr hnew) h
    refine ⟨fun source target hedge => hlater source target (hkept source target hedge), ?_⟩
    exact List.forall_mem_cons.mpr ⟨hlater _ _ hadded, hall⟩

/-- A layer of a graph whose last node is new. -/
structure Joins (S : Type) [ScoreArith S] (index : HnswIndex) (dimension newIndex : ℕ) : Prop where
  valid : index.Valid S dimension
  wired : index.Wired index.config.m
  last : index.nodes.length = newIndex + 1
  neighbors : newIndex ≤ index.config.m
  beam : newIndex < index.config.efConstruction

theorem linkLayer_complete {dimension newIndex current : ℕ} {linked : HnswIndex × ℕ}
    (hjoins : index.Joins S dimension newIndex) (hunlinked : index.Unlinked layer newIndex)
    (hcurrent : current ≠ newIndex) (hcurrentLayer : index.InLayer layer current)
    (hnew : index.InLayer layer newIndex) (hcomplete : index.Complete layer newIndex)
    (h : linkLayer S newIndex query (index, current) layer = .ok linked) :
    linked.1.Complete layer (newIndex + 1) := by
  have hvalid := hjoins.valid
  have hroom : index.nodes.length ≤ index.config.m + 1 := by
    rw [hjoins.last]
    exact Nat.succ_le_succ hjoins.neighbors
  obtain ⟨candidates, hcandidates, h⟩ := except_bind_ok.mp h
  obtain ⟨selected, hselected, h⟩ := except_bind_ok.mp h
  obtain ⟨own, hown, h⟩ := except_bind_ok.mp h
  obtain ⟨last, hlast, h⟩ := except_bind_ok.mp h
  cases h
  obtain ⟨hdistinct, hreaches⟩ := hvalid.searchLayer_reaches hcurrentLayer
    (by rw [hjoins.last]; exact hjoins.beam) hcandidates
  have hwithin : ∀ position ∈ candidates, index.InLayer layer position := fun position hposition =>
    hvalid.inLayer_of_reachable hcurrentLayer ((hreaches position).mp hposition)
  have hnotNew : newIndex ∉ candidates := fun hmem =>
    hunlinked.ne_of_reachable hcurrent ((hreaches _).mp hmem) rfl
  have hlt := length_lt_of_inLayer hdistinct hnotNew hnew hwithin
  have hperm := selectNeighbors_perm hselected hdistinct (by omega)
  have hlinks : ∀ position, position < newIndex → index.InLayer layer position →
      position ∈ selected := by
    intro position hposition hlayer
    rw [hperm.mem_iff, hreaches]
    by_cases hsame : current = position
    · rw [hsame]
      exact Relation.ReflTransGen.refl
    · have hcurrentLt := hcurrentLayer.lt
      rw [hjoins.last] at hcurrentLt
      exact Relation.ReflTransGen.single
        (hcomplete current position hsame (by omega) hposition hcurrentLayer hlayer)
  have hselectedLayer : ∀ position ∈ selected, index.InLayer layer position :=
    fun position hposition => hwithin position (hperm.mem_iff.mp hposition)
  have hselectedNew : newIndex ∉ selected := fun hmem => hnotNew (hperm.mem_iff.mp hmem)
  have hrewires := rewires_setNeighbors index newIndex layer selected
  have hwired : (index.setNeighbors newIndex layer selected).Wired index.config.m :=
    hjoins.wired.setNeighbors (hperm.nodup_iff.mpr hdistinct) hselectedNew
      (by rw [hperm.length_eq]; omega)
  obtain ⟨hkept, hadded⟩ := connectAll_adds (hvalid.setNeighbors hselectedLayer newIndex) hwired
    (by rwa [hrewires.length]) hselectedNew
    (fun position hposition => hrewires.inLayer_iff.mpr (hselectedLayer position hposition))
    (hrewires.inLayer_iff.mpr hnew) hlast
  have hrewires' := hrewires.trans (connectAll_relinks hselectedNew hlast).rewires
  intro source target hne hsource htarget hsourceLayer htargetLayer
  rw [hrewires'.inLayer_iff] at hsourceLayer htargetLayer
  by_cases hsourceNew : source = newIndex
  · subst hsourceNew
    apply hkept
    rw [edge_setNeighbors_iff hown, if_pos rfl]
    exact hlinks target (by omega) htargetLayer
  · by_cases htargetNew : target = newIndex
    · subst htargetNew
      exact hadded source (hlinks source (by omega) hsourceLayer)
    · apply hkept
      rw [edge_setNeighbors_iff hown, if_neg hsourceNew]
      exact hcomplete source target hne (by omega) (by omega) hsourceLayer htargetLayer

theorem pairwise_layersDown (low high : ℕ) : (layersDown low high).Pairwise (· > ·) :=
  List.pairwise_reverse.mpr List.pairwise_lt_range'

theorem Complete.congr {bound : ℕ} (h : index.Complete layer bound)
    (hrewires : Rewires index index')
    (hsame : ∀ position, index'.getNeighbors position layer = index.getNeighbors position layer) :
    index'.Complete layer bound := by
  intro source target hne hsource htarget hsourceLayer htargetLayer
  rw [hrewires.inLayer_iff] at hsourceLayer htargetLayer
  obtain ⟨neighbors, hneighbors, hmem⟩ :=
    h source target hne hsource htarget hsourceLayer htargetLayer
  exact ⟨neighbors, (hsame source).trans hneighbors, hmem⟩

/-- The linked layers become complete, the others are left alone. -/
theorem linkLayers_complete {dimension newIndex current : ℕ} {layers : List ℕ}
    {linked : HnswIndex × ℕ} (hlayers : layers.Pairwise (· > ·))
    (hjoins : index.Joins S dimension newIndex)
    (hquery : Comparable S index.metric dimension query)
    (hunlinked : ∀ layer ∈ layers, index.Unlinked layer newIndex) (hcurrent : current ≠ newIndex)
    (hcurrentLayer : ∀ layer ∈ layers, index.InLayer layer current)
    (hnew : ∀ layer ∈ layers, index.InLayer layer newIndex)
    (hcomplete : ∀ layer ∈ layers, index.Complete layer newIndex)
    (h : layers.foldlM (linkLayer S newIndex query) (index, current) = .ok linked) :
    Rewires index linked.1 ∧ (∀ layer ∈ layers, linked.1.Complete layer (newIndex + 1)) ∧
      ∀ layer, layer ∉ layers → ∀ position,
        linked.1.getNeighbors position layer = index.getNeighbors position layer := by
  induction layers generalizing index current with
  | nil =>
    cases h
    exact ⟨Rewires.refl index, nofun, fun _ _ _ => rfl⟩
  | cons layer rest ih =>
    rw [List.foldlM_cons] at h
    obtain ⟨⟨middle, next⟩, hmiddle, h⟩ := except_bind_ok.mp h
    obtain ⟨hlower, hrest⟩ := List.pairwise_cons.mp hlayers
    obtain ⟨hunlinkedHead, hunlinkedRest⟩ := List.forall_mem_cons.mp hunlinked
    obtain ⟨hcurrentHead, -⟩ := List.forall_mem_cons.mp hcurrentLayer
    obtain ⟨hnewHead, hnewRest⟩ := List.forall_mem_cons.mp hnew
    obtain ⟨hcompleteHead, hcompleteRest⟩ := List.forall_mem_cons.mp hcomplete
    have hhead := linkLayer_complete hjoins hunlinkedHead hcurrent hcurrentHead hnewHead
      hcompleteHead hmiddle
    obtain ⟨hrelinks, hnext⟩ := linkLayer_relinks hunlinkedHead hcurrent hmiddle
    obtain ⟨other, otherNext, hother, hvalid', hrewires, hnextLayer⟩ :=
      hjoins.valid.linkLayer_ok hquery hnewHead hcurrentHead
    rw [hmiddle] at hother
    cases hother
    have hjoins' : middle.Joins S dimension newIndex := by
      refine ⟨hvalid', ?_, ?_, ?_, ?_⟩
      · rw [hrelinks.config]
        exact hrelinks.wired hjoins.wired
      · rw [hrewires.length]
        exact hjoins.last
      · rw [hrelinks.config]
        exact hjoins.neighbors
      · rw [hrelinks.config]
        exact hjoins.beam
    have hbelow : ∀ other ∈ rest, other ≠ layer := fun other hother => (hlower other hother).ne
    obtain ⟨hrewires', hlinked, hsame⟩ := ih hrest hjoins' (by rwa [hrewires.metric])
      (fun other hother => hrelinks.outside.unlinked (hbelow other hother)
        (hunlinkedRest other hother)) hnext
      (fun other hother => hnextLayer.mono (hlower other hother).le)
      (fun other hother => hrewires.inLayer_iff.mpr (hnewRest other hother))
      (fun other hother => (hcompleteRest other hother).congr hrewires
        (hrelinks.outside other (hbelow other hother))) h
    refine ⟨hrewires.trans hrewires', ?_, ?_⟩
    · have hfirst := hhead.congr hrewires' (hsame layer fun hmem => hbelow layer hmem rfl)
      exact List.forall_mem_cons.mpr ⟨hfirst, hlinked⟩
    · intro other hother position
      obtain ⟨hne, hnot⟩ := not_or.mp (mt List.mem_cons.mpr hother)
      exact (hsame other hnot position).trans (hrelinks.outside other hne position)

theorem mem_layersDown {low high layer : ℕ} : layer ∈ layersDown low high ↔
    low ≤ layer ∧ layer ≤ high := by
  rw [layersDown, List.mem_reverse, List.mem_range'_1]
  omega

theorem inLayer_withNode_iff {record : Record} {position : ℕ} (h : position < index.nodes.length) :
    (index.withNode record).InLayer layer position ↔ index.InLayer layer position := by
  unfold InLayer withNode
  rw [List.getElem?_append_left h]

theorem le_of_inLayer_withNode {record : Record}
    (h : (index.withNode record).InLayer layer index.nodes.length) :
    layer ≤ deterministicLevel record.id := by
  obtain ⟨node, hnode, hlevel⟩ := h
  rw [withNode, List.getElem?_concat_length] at hnode
  cases hnode
  exact hlevel

theorem Complete.withNode (h : index.Complete layer index.nodes.length) (record : Record) :
    (index.withNode record).Complete layer index.nodes.length := by
  intro source target hne hsource htarget hsourceLayer htargetLayer
  rw [inLayer_withNode_iff hsource] at hsourceLayer
  rw [inLayer_withNode_iff htarget] at htargetLayer
  obtain ⟨neighbors, hneighbors, hmem⟩ :=
    h source target hne hsource htarget hsourceLayer htargetLayer
  obtain ⟨node, hnode, hlist⟩ := getNeighbors_ok_iff.mp hneighbors
  refine ⟨neighbors, getNeighbors_ok_iff.mpr ⟨node, ?_, hlist⟩, hmem⟩
  rw [HnswIndex.withNode, List.getElem?_append_left hsource, hnode]

/-- Layers that the new node does not share with any other stay complete. -/
theorem Complete.extend {bound : ℕ} (h : index.Complete layer bound)
    (halone : ∀ position, index.InLayer layer bound → index.InLayer layer position →
      position = bound) : index.Complete layer (bound + 1) := by
  intro source target hne hsource htarget hsourceLayer htargetLayer
  by_cases hsourceNew : source = bound
  · subst hsourceNew
    exact absurd (halone target hsourceLayer htargetLayer).symm hne
  · by_cases htargetNew : target = bound
    · subst htargetNew
      exact absurd (halone source htargetLayer hsourceLayer) hne
    · exact h source target hne (by omega) (by omega) hsourceLayer htargetLayer

theorem Built.insert_complete {dimension : ℕ} {record : Record}
    (hbuilt : index.Built S dimension) (hshaped : index.Shaped index.config.m)
    (hrecord : Comparable S index.metric dimension record.vector.values)
    (hneighbors : index.nodes.length ≤ index.config.m)
    (hbeam : index.nodes.length < index.config.efConstruction)
    (hcomplete : ∀ layer, index.Complete layer index.nodes.length)
    (h : HnswIndex.insert S index record = .ok index') (layer : ℕ) :
    index'.Complete layer (index.nodes.length + 1) := by
  have hadded := (hcomplete layer).withNode record
  unfold HnswIndex.insert at h
  cases hentry : index.entryPoint with
  | none =>
    rw [hentry] at h
    cases h
    intro source target hne hsource htarget
    rw [hbuilt.empty hentry, List.length_nil] at hsource htarget
    omega
  | some entry =>
    rw [hentry] at h
    obtain ⟨current, hcurrent, h⟩ := except_bind_ok.mp h
    obtain ⟨linked, hlinked, h⟩ := except_bind_ok.mp h
    have hvalid := hbuilt.valid.withNode hrecord
    have hunlinked := hbuilt.valid.unlinked_withNode record
    have hnew := inLayer_withNode_new index record
    have hne := descend_ne (fun layer _ => hunlinked layer)
      (hbuilt.entry entry hentry).lt.ne hcurrent
    obtain ⟨other, hother, hcurrentLayer⟩ := hvalid.descend_ok hrecord
      QueryControl.check_unbounded (deterministicLevel record.id + 1)
      ((hbuilt.entry entry hentry).withNode record)
    rw [Except.ok.inj (hother.symm.trans hcurrent)] at hcurrentLayer
    have hjoins : (index.withNode record).Joins S dimension index.nodes.length :=
      ⟨hvalid, hshaped.wired.withNode record, by simp [HnswIndex.withNode], hneighbors, hbeam⟩
    obtain ⟨hrewires, hcompleted, houtside⟩ := linkLayers_complete (pairwise_layersDown _ _) hjoins
      hrecord (fun layer _ => hunlinked layer) hne
      (fun layer hlayer => hcurrentLayer.mono (by
        have hle := (mem_layersDown.mp hlayer).2
        omega))
      (fun layer hlayer => hnew.mono (by
        have hle := (mem_layersDown.mp hlayer).2
        omega))
      (fun layer _ => (hcomplete layer).withNode record) hlinked
    have hall : linked.1.Complete layer (index.nodes.length + 1) := by
      by_cases hmem : layer ∈ layersDown 0 (min (deterministicLevel record.id) index.maxLevel)
      · exact hcompleted layer hmem
      · apply (hadded.congr hrewires (houtside layer hmem)).extend
        intro position hlast hposition
        rw [hrewires.inLayer_iff] at hlast hposition
        have hhigh : index.maxLevel < layer := by
          rw [mem_layersDown] at hmem
          have hle := le_of_inLayer_withNode hlast
          omega
        by_contra hother
        have hlt := hposition.lt
        rw [hjoins.last] at hlt
        rw [inLayer_withNode_iff (by omega)] at hposition
        obtain ⟨node, hnode, hlevel⟩ := hposition
        have hle := hshaped.levels node (List.mem_of_getElem? hnode)
        omega
    by_cases hhigher : index.maxLevel < deterministicLevel record.id
    · rw [if_pos hhigher] at h
      cases h
      exact hall
    · rw [if_neg hhigher] at h
      cases h
      exact hall

theorem insertAll_complete {dimension : ℕ} {records : List Record}
    (hbuilt : index.Built S dimension) (hshaped : index.Shaped index.config.m)
    (hrecords : ∀ record ∈ records, Comparable S index.metric dimension record.vector.values)
    (hneighbors : index.nodes.length + records.length ≤ index.config.m + 1)
    (hbeam : index.nodes.length + records.length ≤ index.config.efConstruction)
    (hcomplete : ∀ layer, index.Complete layer index.nodes.length)
    (h : records.foldlM (HnswIndex.insert S) index = .ok index') (layer : ℕ) :
    index'.Complete layer index'.nodes.length := by
  induction records generalizing index with
  | nil =>
    cases h
    exact hcomplete layer
  | cons head rest ih =>
    rw [List.foldlM_cons] at h
    obtain ⟨middle, hmiddle, h⟩ := except_bind_ok.mp h
    obtain ⟨hhead, hrest⟩ := List.forall_mem_cons.mp hrecords
    obtain ⟨other, hother, hbuilt', hsame, hall⟩ := hbuilt.insert_ok hhead
    rw [hmiddle] at hother
    cases hother
    have hlength : middle.nodes.length = index.nodes.length + 1 := by
      simpa [HnswIndex.records] using congrArg List.length hall
    have hshaped' := hshaped.insert hbuilt hmiddle
    rw [List.length_cons] at hneighbors hbeam
    apply ih hbuilt'
    · rwa [hsame.config]
    · rwa [hsame.metric]
    · rw [hsame.config, hlength]
      omega
    · rw [hsame.config, hlength]
      omega
    · intro layer
      rw [hlength]
      exact hbuilt.insert_complete hshaped hhead (by omega) (by omega) hcomplete hmiddle layer
    · exact h

/-- A graph with room for all other records in every list is complete. -/
theorem complete_of_build {segments : List Segment} {collectionId : CollectionId}
    {metric : DistanceMetric} {config : HnswConfig}
    (h : build S segments collectionId metric config = .ok index)
    (hneighbors : (visibleRecords segments collectionId).length ≤ config.m + 1)
    (hbeam : (visibleRecords segments collectionId).length ≤ config.efConstruction) (layer : ℕ) :
    index.Complete layer index.nodes.length := by
  obtain ⟨validated, hvalidated, hbuild⟩ := except_bind_ok.mp h
  obtain ⟨rfl, -⟩ := HnswConfig.validate_ok_iff.mp hvalidated
  rw [mergeSort_visibleRecords] at hbuild
  obtain ⟨⟨⟩, hchecked, hinsert⟩ := except_bind_ok.mp hbuild
  refine insertAll_complete (empty_built ..) (empty_shaped ..)
    (forM_checkRecord_ok_iff.mp hchecked) ?_ ?_ ?_ hinsert layer
  · simpa using hneighbors
  · simpa using hbeam
  · exact fun layer source target _ hsource => absurd hsource (Nat.not_lt_zero _)

end HnswIndex

end Ketebe
