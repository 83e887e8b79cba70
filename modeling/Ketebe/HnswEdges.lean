import Ketebe.HnswBuild
import Mathlib.Logic.Relation

/-!
The edges of a graph. A search of a layer only meets nodes that edges lead to
from its entry. A node that is being inserted has no incoming edges yet in the
layers still to be linked, so no search meets it and no node becomes its own
neighbour.
-/
namespace Ketebe

open Lib.ByteCodec

namespace HnswIndex

variable {index index' : HnswIndex} {layer : ℕ}

theorem getNeighbors_ok_iff {position : ℕ} {neighbors : List ℕ} :
    index.getNeighbors position layer = .ok neighbors ↔
      ∃ node, index.nodes[position]? = some node ∧ node.neighbors[layer]? = some neighbors := by
  unfold getNeighbors getNode
  cases hnode : index.nodes[position]? with
  | none => exact ⟨nofun, fun ⟨_, hsome, _⟩ => nomatch hsome⟩
  | some node =>
    rw [except_ok_bind]
    cases hneighbors : node.neighbors[layer]? with
    | none =>
      refine ⟨nofun, ?_⟩
      rintro ⟨_, ⟨⟩, hsome⟩
      rw [hneighbors] at hsome
      cases hsome
    | some found =>
      constructor
      · intro h
        cases h
        exact ⟨node, rfl, hneighbors⟩
      · rintro ⟨_, ⟨⟩, hsome⟩
        rw [hneighbors] at hsome
        cases hsome
        rfl

/-- An edge of the layer. -/
def Edge (index : HnswIndex) (layer source target : ℕ) : Prop :=
  ∃ neighbors, index.getNeighbors source layer = .ok neighbors ∧ target ∈ neighbors

/-- The edges of the layer lead from one node to the other. -/
def Reachable (index : HnswIndex) (layer : ℕ) : ℕ → ℕ → Prop :=
  Relation.ReflTransGen (index.Edge layer)

/-- No edge of the layer leads to the node. -/
def Unlinked (index : HnswIndex) (layer target : ℕ) : Prop :=
  ∀ source, ¬index.Edge layer source target

theorem Unlinked.ne_of_reachable {entry target found : ℕ} (h : index.Unlinked layer target)
    (hentry : entry ≠ target) (hreach : index.Reachable layer entry found) : found ≠ target := by
  rcases Relation.ReflTransGen.cases_tail hreach with rfl | ⟨source, -, hedge⟩
  · exact hentry
  · rintro rfl
    exact h source hedge

/-! ### What a search meets -/

section Search

variable {S : Type} [ScoreArith S] {query : List F32} {control : QueryControl}

theorem ranked_snd {candidates : List ℕ} {entries : List (Rank S × ℕ)}
    (h : ranked S index query candidates = .ok entries) : entries.map Prod.snd = candidates := by
  have hpairs := except_mapM_ok.mp h
  clear h
  induction hpairs with
  | nil => rfl
  | cons hhead _ ih =>
    obtain ⟨value, -, hhead⟩ := except_bind_ok.mp hhead
    cases hhead
    rw [List.map_cons, ih]

theorem sortByDistance_perm {candidates sorted : List ℕ}
    (h : sortByDistance S index query candidates = .ok sorted) : sorted.Perm candidates := by
  unfold sortByDistance at h
  split at h
  · cases h
    exact List.Perm.refl _
  · obtain ⟨entries, hentries, h⟩ := except_bind_ok.mp h
    cases h
    rw [← ranked_snd hentries]
    exact (List.mergeSort_perm ..).map Prod.snd

theorem swapRemove_perm {values : List ℕ} {position value : ℕ}
    (h : values[position]? = some value) : values.Perm (value :: swapRemove values position) := by
  rcases List.eq_nil_or_concat values with rfl | ⟨init, last, hvalues⟩
  · cases h
  rw [List.concat_eq_append] at hvalues
  subst hvalues
  have hlast : (init ++ [last]).getLast? = some last := List.getLast?_concat
  simp only [swapRemove, hlast]
  by_cases hposition : position < init.length
  · rw [List.getElem?_append_left hposition, List.getElem?_eq_getElem hposition] at h
    obtain rfl := Option.some.inj h
    have hset : ((init ++ [last]).set position last).dropLast =
        init.take position ++ last :: init.drop (position + 1) := by
      rw [List.set_append_left _ _ hposition, List.dropLast_concat,
        List.set_eq_take_append_cons_drop, if_pos hposition]
    have hinit : init = init.take position ++ init[position] :: init.drop (position + 1) := by
      rw [List.cons_getElem_drop_succ, List.take_append_drop]
    rw [hset]
    calc (init ++ [last]).Perm (last :: init) := List.perm_append_singleton last init
      _ = last :: (init.take position ++ init[position] :: init.drop (position + 1)) := by
        rw [← hinit]
      _ |>.Perm (last :: init[position] :: (init.take position ++ init.drop (position + 1))) :=
        List.perm_middle.cons last
      _ |>.Perm (init[position] :: last :: (init.take position ++ init.drop (position + 1))) :=
        List.Perm.swap ..
      _ |>.Perm (init[position] :: (init.take position ++ last :: init.drop (position + 1))) :=
        List.perm_middle.symm.cons _
  · have hend : position = init.length := by
      have hlt := (List.getElem?_eq_some_iff.mp h).1
      rw [List.length_append, List.length_singleton] at hlt
      omega
    subst hend
    rw [List.getElem?_concat_length] at h
    obtain rfl := Option.some.inj h
    have hset : ((init ++ [last]).set init.length last).dropLast = init := by
      rw [List.set_append_right _ _ (le_refl _), Nat.sub_self, List.set_cons_zero,
        List.dropLast_concat]
    rw [hset]
    exact List.perm_append_singleton last init

theorem popNearest_some {frontier rest : List ℕ} {current : ℕ}
    (h : popNearest S index query frontier = .ok (some (current, rest))) :
    frontier.Perm (current :: rest) := by
  obtain ⟨position, -, h⟩ := except_bind_ok.mp h
  cases hcurrent : frontier[position]? with
  | none =>
    rw [hcurrent] at h
    cases h
  | some value =>
    rw [hcurrent] at h
    cases h
    exact swapRemove_perm hcurrent

/-- A neighbour is new or changes nothing. -/
theorem visitNeighbor_ok {ef neighbor : ℕ} {state next : LayerSearch}
    (h : visitNeighbor S index query ef state neighbor = .ok next) :
    (neighbor ∈ state.visited ∧ next = state) ∨
    (neighbor ∉ state.visited ∧ ∃ sorted, sortByDistance S index query (state.best ++ [neighbor]) =
      .ok sorted ∧ next = ⟨neighbor :: state.visited, state.frontier ++ [neighbor],
        sorted.take ef⟩) := by
  unfold visitNeighbor at h
  split at h
  · rename_i hvisited
    cases h
    exact .inl ⟨hvisited, rfl⟩
  · rename_i hnew
    obtain ⟨sorted, hsorted, h⟩ := except_bind_ok.mp h
    cases h
    exact .inr ⟨hnew, sorted, hsorted, rfl⟩

/-- One iteration of the loop that takes a node from the frontier and visits its neighbours. -/
structure Expands (S : Type) [ScoreArith S] (index : HnswIndex) (query : List F32) (ef layer : ℕ)
    (state : LayerSearch) (current : ℕ) (rest neighbors : List ℕ) (next : LayerSearch) : Prop where
  pop : popNearest S index query state.frontier = .ok (some (current, rest))
  goesOn : isExhausted S index query ef state.best current = .ok false
  adjacent : index.getNeighbors current layer = .ok neighbors
  visits : neighbors.foldlM (visitNeighbor S index query ef) { state with frontier := rest } =
    .ok next

/-- The loop has nothing left to take, or only nodes farther than enough others. -/
def Ends (S : Type) [ScoreArith S] (index : HnswIndex) (query : List F32) (ef : ℕ)
    (state : LayerSearch) : Prop :=
  popNearest S index query state.frontier = .ok none ∨ ∃ current rest,
    popNearest S index query state.frontier = .ok (some (current, rest)) ∧
      isExhausted S index query ef state.best current = .ok true

/-- What every iteration keeps holds where the loop ends. -/
theorem searchLayerLoop_keeps {ef : ℕ} {kept : LayerSearch → Prop}
    (hstep : ∀ state current rest neighbors next, kept state →
      Expands S index query ef layer state current rest neighbors next → kept next)
    {iterations : ℕ} {state : LayerSearch} {found : List ℕ} (hstate : kept state)
    (h : searchLayerLoop S index query ef layer control iterations state = .ok found) :
    ∃ final, kept final ∧ Ends S index query ef final ∧ found = final.best := by
  induction iterations generalizing state with
  | zero => cases h
  | succ iterations ih =>
    obtain ⟨popped, hpopped, h⟩ := except_bind_ok.mp h
    cases popped with
    | none =>
      cases h
      exact ⟨state, hstate, .inl hpopped, rfl⟩
    | some popped =>
      obtain ⟨current, rest⟩ := popped
      obtain ⟨⟨⟩, -, h⟩ := except_bind_ok.mp h
      obtain ⟨exhausted, hexhausted, h⟩ := except_bind_ok.mp h
      cases exhausted with
      | true =>
        cases h
        exact ⟨state, hstate, .inr ⟨current, rest, hpopped, hexhausted⟩, rfl⟩
      | false =>
        obtain ⟨neighbors, hneighbors, h⟩ := except_bind_ok.mp h
        obtain ⟨next, hnext, h⟩ := except_bind_ok.mp h
        exact ih (hstep state current rest neighbors next hstate
          ⟨hpopped, hexhausted, hneighbors, hnext⟩) h

/-- The search knows only nodes that its entry leads to, each once. -/
structure LayerSearch.Explores (index : HnswIndex) (layer entry : ℕ) (state : LayerSearch) :
    Prop where
  reachable : ∀ position ∈ state.visited, index.Reachable layer entry position
  frontier : ∀ position ∈ state.frontier, position ∈ state.visited
  best : ∀ position ∈ state.best, position ∈ state.visited
  distinct : state.best.Nodup

theorem LayerSearch.Explores.visit {ef entry neighbor : ℕ} {state next : LayerSearch}
    (h : state.Explores index layer entry) (hneighbor : index.Reachable layer entry neighbor)
    (hnext : visitNeighbor S index query ef state neighbor = .ok next) :
    next.Explores index layer entry := by
  rcases visitNeighbor_ok hnext with ⟨-, rfl⟩ | ⟨hnew, sorted, hsorted, rfl⟩
  · exact h
  have hperm := sortByDistance_perm hsorted
  have hdistinct : (state.best ++ [neighbor]).Nodup :=
    List.nodup_append.mpr ⟨h.distinct, List.nodup_singleton neighbor, fun position hposition other
      hother => by
        rw [List.mem_singleton.mp hother]
        exact fun heq => hnew (heq ▸ h.best position hposition)⟩
  have happend (values : List ℕ) (hvalues : ∀ position ∈ values, position ∈ state.visited) :
      ∀ position ∈ values ++ [neighbor], position ∈ neighbor :: state.visited := by
    intro position hposition
    rcases List.mem_append.mp hposition with hold | hsingle
    · exact List.mem_cons_of_mem _ (hvalues position hold)
    · exact List.mem_singleton.mp hsingle ▸ List.mem_cons_self ..
  refine ⟨?_, happend _ h.frontier, ?_, ?_⟩
  · exact List.forall_mem_cons.mpr ⟨hneighbor, h.reachable⟩
  · intro position hposition
    exact happend _ h.best position (hperm.mem_iff.mp (List.mem_of_mem_take hposition))
  · exact (hperm.nodup_iff.mpr hdistinct).sublist (List.take_sublist ..)

theorem LayerSearch.Explores.expand {ef entry current : ℕ} {state next : LayerSearch}
    {rest neighbors : List ℕ} (h : state.Explores index layer entry)
    (hexpands : Expands S index query ef layer state current rest neighbors next) :
    next.Explores index layer entry := by
  have hperm := popNearest_some hexpands.pop
  have hcurrent := h.reachable current
    (h.frontier current (hperm.mem_iff.mpr (List.mem_cons_self ..)))
  have hpopped : LayerSearch.Explores index layer entry { state with frontier := rest } :=
    ⟨h.reachable, fun position hposition => h.frontier position
      (hperm.mem_iff.mpr (List.mem_cons_of_mem _ hposition)), h.best, h.distinct⟩
  refine except_foldlM_keeps (fun neighbor hneighbor middle last hmiddle hlast => ?_) hpopped
    hexpands.visits
  exact hmiddle.visit (hcurrent.tail ⟨neighbors, hexpands.adjacent, hneighbor⟩) hlast

theorem LayerSearch.explores_start (index : HnswIndex) (layer entry : ℕ) :
    LayerSearch.Explores index layer entry ⟨[entry], [entry], [entry]⟩ :=
  ⟨fun _ hposition => List.mem_singleton.mp hposition ▸ Relation.ReflTransGen.refl,
    fun _ h => h, fun _ h => h, List.nodup_singleton entry⟩

theorem searchLayer_explores {ef entry : ℕ} {found : List ℕ}
    (h : searchLayerControlled S index query entry ef layer control = .ok found) :
    found.Nodup ∧ ∀ position ∈ found, index.Reachable layer entry position := by
  obtain ⟨⟨⟩, -, h⟩ := except_bind_ok.mp h
  obtain ⟨final, hfinal, -, rfl⟩ := searchLayerLoop_keeps
    (fun _ _ _ _ _ hstate hexpands => LayerSearch.Explores.expand hstate hexpands)
    (LayerSearch.explores_start index layer entry) h
  exact ⟨hfinal.distinct, fun position hposition =>
    hfinal.reachable position (hfinal.best position hposition)⟩

theorem greedySearchLoop_reachable {iterations current found : ℕ}
    (h : greedySearchLoop S index query layer control iterations current = .ok found) :
    index.Reachable layer current found := by
  induction iterations generalizing current with
  | zero => cases h
  | succ iterations ih =>
    obtain ⟨⟨⟩, -, h⟩ := except_bind_ok.mp h
    obtain ⟨currentRank, -, h⟩ := except_bind_ok.mp h
    obtain ⟨neighbors, hneighbors, h⟩ := except_bind_ok.mp h
    obtain ⟨position, -, h⟩ := except_bind_ok.mp h
    cases hcandidate : neighbors[position]? with
    | none =>
      rw [hcandidate] at h
      cases h
      exact Relation.ReflTransGen.refl
    | some candidate =>
      rw [hcandidate] at h
      obtain ⟨candidateRank, -, h⟩ := except_bind_ok.mp h
      split at h
      · exact Relation.ReflTransGen.head
          ⟨neighbors, hneighbors, List.mem_of_getElem? hcandidate⟩ (ih h)
      · cases h
        exact Relation.ReflTransGen.refl

/-- The descent avoids a node that no edge leads to. -/
theorem descend_ne {entry target found : ℕ} {layers : List ℕ}
    (hunlinked : ∀ layer ∈ layers, index.Unlinked layer target) (hentry : entry ≠ target)
    (h : descend S index query control entry layers = .ok found) : found ≠ target := by
  have hkeeps : ∀ layer ∈ layers, ∀ current next, current ≠ target →
      descendLayer S index query control current layer = .ok next → next ≠ target := by
    intro layer hlayer current next hcurrent hnext
    obtain ⟨⟨⟩, -, hnext⟩ := except_bind_ok.mp hnext
    exact (hunlinked layer hlayer).ne_of_reachable hcurrent (greedySearchLoop_reachable hnext)
  exact except_foldlM_keeps hkeeps hentry h

end Search

/-! ### Well-formed lists of neighbours -/

/-- Lists of neighbours have no repetitions, not the node itself and at most `m` nodes. -/
def Wired (index : HnswIndex) (m : ℕ) : Prop :=
  ∀ position layer neighbors, index.getNeighbors position layer = .ok neighbors →
    neighbors.Nodup ∧ position ∉ neighbors ∧ neighbors.length ≤ m

/-- The two graphs have the same edges outside this layer. -/
def AgreeOutside (layer : ℕ) (index index' : HnswIndex) : Prop :=
  ∀ other, other ≠ layer → ∀ position,
    index'.getNeighbors position other = index.getNeighbors position other

theorem AgreeOutside.unlinked {other target : ℕ} (h : AgreeOutside layer index index')
    (hother : other ≠ layer) (hunlinked : index.Unlinked other target) :
    index'.Unlinked other target := by
  rintro source ⟨neighbors, hneighbors, htarget⟩
  rw [h other hother] at hneighbors
  exact hunlinked source ⟨neighbors, hneighbors, htarget⟩

theorem getNeighbors_setNeighbors (position layer : ℕ) (neighbors : List ℕ) (other otherLayer : ℕ) :
    (index.setNeighbors position layer neighbors).getNeighbors other otherLayer =
      if position = other ∧ layer = otherLayer then
        (index.getNeighbors other otherLayer).map fun _ => neighbors
      else index.getNeighbors other otherLayer := by
  unfold getNeighbors getNode setNeighbors
  simp only [List.getElem?_modify, Option.map_eq_map]
  cases index.nodes[other]? with
  | none =>
    by_cases hsame : position = other ∧ layer = otherLayer
    · rw [if_pos hsame]
      rfl
    · rw [if_neg hsame]
      rfl
  | some node =>
    by_cases hposition : position = other
    · by_cases hlayer : layer = otherLayer
      · subst hlayer
        rw [if_pos ⟨hposition, rfl⟩]
        simp only [hposition, Option.map_some, if_true, except_ok_bind, List.getElem?_set]
        by_cases hlt : layer < node.neighbors.length
        · simp [hlt]
          rfl
        · simp [hlt]
          rfl
      · rw [if_neg fun h => hlayer h.2]
        simp only [hposition, if_true, Option.map_some, except_ok_bind,
          List.getElem?_set_ne hlayer]
    · rw [if_neg fun h => hposition h.1]
      simp [hposition]

theorem agreeOutside_setNeighbors (index : HnswIndex) (position layer : ℕ) (neighbors : List ℕ) :
    AgreeOutside layer index (index.setNeighbors position layer neighbors) := by
  intro other hother current
  rw [getNeighbors_setNeighbors, if_neg fun h => hother h.2.symm]

theorem Wired.setNeighbors {m position : ℕ} {neighbors : List ℕ} (h : index.Wired m)
    (hdistinct : neighbors.Nodup) (hself : position ∉ neighbors) (hlength : neighbors.length ≤ m) :
    (index.setNeighbors position layer neighbors).Wired m := by
  intro other otherLayer found hfound
  rw [getNeighbors_setNeighbors] at hfound
  split at hfound
  · rename_i hsame
    cases hold : index.getNeighbors other otherLayer with
    | error error =>
      rw [hold] at hfound
      cases hfound
    | ok old =>
      rw [hold] at hfound
      cases hfound
      exact ⟨hdistinct, hsame.1 ▸ hself, hlength⟩
  · exact h other otherLayer found hfound

section Link

variable {S : Type} [ScoreArith S] {query : List F32}

theorem dedupConsecutive_sublist (values : List ℕ) :
    (Lib.SortedSet.dedupConsecutive values).Sublist values := by
  induction values using Lib.SortedSet.dedupConsecutive.induct with
  | case1 => exact List.Sublist.slnil
  | case2 value => exact List.Sublist.refl _
  | case3 value rest ih =>
    rw [Lib.SortedSet.dedupConsecutive, if_pos rfl]
    exact ih.cons _
  | case4 value other rest hne ih =>
    rw [Lib.SortedSet.dedupConsecutive, if_neg hne]
    exact ih.cons_cons _

/-- The selected neighbours are among the candidates, each once, and at most so many. -/
theorem selectNeighbors_ok {candidates selected : List ℕ} {limit : ℕ}
    (h : selectNeighbors S index query candidates limit = .ok selected)
    (hdistinct : candidates.Nodup) :
    selected.Nodup ∧ (∀ position ∈ selected, position ∈ candidates) ∧ selected.length ≤ limit := by
  obtain ⟨sorted, hsorted, h⟩ := except_bind_ok.mp h
  cases h
  have hperm := sortByDistance_perm hsorted
  refine ⟨?_, fun position hposition => hperm.mem_iff.mp (mem_of_mem_dedup_take hposition), ?_⟩
  · exact (hperm.nodup_iff.mpr hdistinct).sublist
      ((List.take_sublist ..).trans (dedupConsecutive_sublist sorted))
  · exact List.length_take_le ..

/-- Linking keeps the lists well formed, the settings and all other layers. -/
structure Relinks (layer m : ℕ) (index index' : HnswIndex) : Prop where
  rewires : Rewires index index'
  outside : AgreeOutside layer index index'
  wired : index.Wired m → index'.Wired m

theorem Relinks.refl (layer m : ℕ) (index : HnswIndex) : Relinks layer m index index :=
  ⟨Rewires.refl index, fun _ _ _ => rfl, id⟩

theorem Relinks.trans {m : ℕ} {index'' : HnswIndex} (h : Relinks layer m index index')
    (h' : Relinks layer m index' index'') : Relinks layer m index index'' :=
  ⟨h.rewires.trans h'.rewires, fun other hother position =>
    (h'.outside other hother position).trans (h.outside other hother position),
    fun hwired => h'.wired (h.wired hwired)⟩

theorem Relinks.config {m : ℕ} (h : Relinks layer m index index') :
    index'.config = index.config := by
  rw [h.rewires.rest]

theorem connect_relinks {newIndex existing : ℕ} (hne : existing ≠ newIndex)
    (h : connect S index newIndex layer existing = .ok index') :
    Relinks layer index.config.m index index' := by
  obtain ⟨node, hnode, h⟩ := except_bind_ok.mp h
  split at h
  · cases h
    exact Relinks.refl ..
  obtain ⟨neighbors, hneighbors, h⟩ := except_bind_ok.mp h
  obtain ⟨selected, hselected, h⟩ := except_bind_ok.mp h
  cases h
  refine ⟨rewires_setNeighbors .., agreeOutside_setNeighbors _ _ _ _, fun hwired => ?_⟩
  obtain ⟨hdistinct, hself, -⟩ := hwired existing layer neighbors hneighbors
  have hcandidates : (if newIndex ∈ neighbors then neighbors else neighbors ++ [newIndex]).Nodup ∧
      existing ∉ (if newIndex ∈ neighbors then neighbors else neighbors ++ [newIndex]) := by
    split
    · exact ⟨hdistinct, hself⟩
    · rename_i hnew
      refine ⟨List.nodup_append.mpr ⟨hdistinct, List.nodup_singleton _, ?_⟩, ?_⟩
      · intro position hposition other hother heq
        rw [heq, List.mem_singleton.mp hother] at hposition
        exact hnew hposition
      · simp [hself, hne]
  obtain ⟨hselectedDistinct, hsubset, hlength⟩ := selectNeighbors_ok hselected hcandidates.1
  exact hwired.setNeighbors hselectedDistinct (fun hmem => hcandidates.2 (hsubset _ hmem)) hlength

theorem connectAll_relinks {newIndex : ℕ} {selected : List ℕ} (hne : newIndex ∉ selected)
    (h : selected.foldlM (fun index existing => connect S index newIndex layer existing) index =
      .ok index') : Relinks layer index.config.m index index' := by
  have hkeeps : ∀ existing ∈ selected, ∀ middle next, Relinks layer index.config.m index middle →
      connect S middle newIndex layer existing = .ok next →
        Relinks layer index.config.m index next := by
    intro existing hexisting middle next hmiddle hnext
    have hexistingNe : existing ≠ newIndex := fun heq => hne (heq ▸ hexisting)
    have hlast := connect_relinks hexistingNe hnext
    rw [hmiddle.config] at hlast
    exact hmiddle.trans hlast
  exact except_foldlM_keeps hkeeps (Relinks.refl ..) h

/-- A node without incoming edges in the layer is linked there. -/
theorem linkLayer_relinks {newIndex current : ℕ} {linked : HnswIndex × ℕ}
    (hunlinked : index.Unlinked layer newIndex) (hcurrent : current ≠ newIndex)
    (h : linkLayer S newIndex query (index, current) layer = .ok linked) :
    Relinks layer index.config.m index linked.1 ∧ linked.2 ≠ newIndex := by
  obtain ⟨candidates, hcandidates, h⟩ := except_bind_ok.mp h
  obtain ⟨selected, hselected, h⟩ := except_bind_ok.mp h
  obtain ⟨own, -, h⟩ := except_bind_ok.mp h
  obtain ⟨last, hlast, h⟩ := except_bind_ok.mp h
  cases h
  obtain ⟨hdistinct, hreachable⟩ := searchLayer_explores hcandidates
  obtain ⟨hselectedDistinct, hsubset, hlength⟩ := selectNeighbors_ok hselected hdistinct
  have hnew : newIndex ∉ selected := fun hmem =>
    hunlinked.ne_of_reachable hcurrent (hreachable _ (hsubset _ hmem)) rfl
  have hown : Relinks layer index.config.m index (index.setNeighbors newIndex layer selected) :=
    ⟨rewires_setNeighbors .., agreeOutside_setNeighbors _ _ _ _, fun hwired =>
      hwired.setNeighbors hselectedDistinct hnew hlength⟩
  refine ⟨hown.trans (connectAll_relinks hnew hlast), ?_⟩
  cases selected with
  | nil => exact hcurrent
  | cons head rest => exact fun heq => hnew (heq ▸ List.mem_cons_self ..)

theorem linkLayers_wired {newIndex current : ℕ} {layers : List ℕ} {linked : HnswIndex × ℕ}
    (hlayers : layers.Nodup) (hunlinked : ∀ layer ∈ layers, index.Unlinked layer newIndex)
    (hcurrent : current ≠ newIndex) (hwired : index.Wired index.config.m)
    (h : layers.foldlM (linkLayer S newIndex query) (index, current) = .ok linked) :
    Rewires index linked.1 ∧ linked.1.Wired index.config.m := by
  induction layers generalizing index current with
  | nil =>
    cases h
    exact ⟨Rewires.refl index, hwired⟩
  | cons layer rest ih =>
    rw [List.foldlM_cons] at h
    obtain ⟨⟨middle, next⟩, hmiddle, h⟩ := except_bind_ok.mp h
    obtain ⟨hnew, hrest⟩ := List.nodup_cons.mp hlayers
    obtain ⟨hrelinks, hnext⟩ :=
      linkLayer_relinks (hunlinked layer (List.mem_cons_self ..)) hcurrent hmiddle
    have hlater : ∀ other ∈ rest, middle.Unlinked other newIndex := fun other hother =>
      hrelinks.outside.unlinked (fun heq => hnew (heq ▸ hother))
        (hunlinked other (List.mem_cons_of_mem _ hother))
    obtain ⟨hrewires, hlast⟩ :=
      ih hrest hlater hnext (by rw [hrelinks.config]; exact hrelinks.wired hwired) h
    rw [hrelinks.config] at hlast
    exact ⟨hrelinks.rewires.trans hrewires, hlast⟩

/-! ### Built graphs -/

/-- The shape of the graph between two insertions. -/
structure Shaped (index : HnswIndex) (m : ℕ) : Prop where
  wired : index.Wired m
  levels : ∀ node ∈ index.nodes, node.level ≤ index.maxLevel
  bottom : index.nodes = [] → index.maxLevel = 0

theorem getNeighbors_withNode {record : Record} {position : ℕ} {neighbors : List ℕ}
    (h : (index.withNode record).getNeighbors position layer = .ok neighbors) :
    index.getNeighbors position layer = .ok neighbors ∨ neighbors = [] := by
  obtain ⟨node, hnode, hneighbors⟩ := getNeighbors_ok_iff.mp h
  by_cases hlt : position < index.nodes.length
  · rw [withNode, List.getElem?_append_left hlt] at hnode
    exact .inl (getNeighbors_ok_iff.mpr ⟨node, hnode, hneighbors⟩)
  · rw [withNode, List.getElem?_append_right (not_lt.mp hlt)] at hnode
    rw [List.mem_singleton.mp (List.mem_of_getElem? hnode)] at hneighbors
    exact .inr (List.mem_replicate.mp (List.mem_of_getElem? hneighbors)).2

theorem Wired.withNode {m : ℕ} (h : index.Wired m) (record : Record) :
    (index.withNode record).Wired m := by
  intro position layer neighbors hneighbors
  rcases getNeighbors_withNode hneighbors with hold | rfl
  · exact h position layer neighbors hold
  · exact ⟨List.nodup_nil, List.not_mem_nil, Nat.zero_le m⟩

theorem Valid.unlinked_withNode {dimension : ℕ} (h : index.Valid S dimension) (record : Record)
    (layer : ℕ) : (index.withNode record).Unlinked layer index.nodes.length := by
  rintro source ⟨neighbors, hneighbors, htarget⟩
  rcases getNeighbors_withNode hneighbors with hold | rfl
  · obtain ⟨node, hnode, hlist⟩ := getNeighbors_ok_iff.mp hold
    have hlayer := h.edges node (List.mem_of_getElem? hnode) layer neighbors hlist _ htarget
    exact lt_irrefl _ hlayer.lt
  · cases htarget

theorem Rewires.levels {bound : ℕ} (h : Rewires index index')
    (hlevels : ∀ node ∈ index.nodes, node.level ≤ bound) :
    ∀ node ∈ index'.nodes, node.level ≤ bound := by
  intro node hnode
  have hmem : (node.record, node.level) ∈ index.nodes.map fun node => (node.record, node.level) :=
    h.nodes ▸ List.mem_map_of_mem hnode
  obtain ⟨old, hold, heq⟩ := List.mem_map.mp hmem
  exact (Prod.mk.inj heq).2 ▸ hlevels old hold

theorem nodup_layersDown (low high : ℕ) : (layersDown low high).Nodup :=
  List.nodup_reverse.mpr List.nodup_range'

theorem Shaped.insert {dimension : ℕ} {record : Record} (hbuilt : index.Built S dimension)
    (hshaped : index.Shaped index.config.m) (h : HnswIndex.insert S index record = .ok index') :
    index'.Shaped index.config.m := by
  have hwired := hshaped.wired.withNode record
  have hunlinked := hbuilt.valid.unlinked_withNode record
  unfold HnswIndex.insert at h
  cases hentry : index.entryPoint with
  | none =>
    rw [hentry] at h
    cases h
    refine ⟨hwired, fun node hnode => ?_, fun hempty => ?_⟩
    · rw [withNode, hbuilt.empty hentry, List.nil_append] at hnode
      rw [List.mem_singleton.mp hnode]
    · simp [withNode] at hempty
  | some entry =>
    rw [hentry] at h
    have hentryNe : entry ≠ index.nodes.length := (hbuilt.entry entry hentry).lt.ne
    obtain ⟨current, hcurrent, h⟩ := except_bind_ok.mp h
    obtain ⟨linked, hlinked, h⟩ := except_bind_ok.mp h
    have hne := descend_ne (fun layer _ => hunlinked layer) hentryNe hcurrent
    obtain ⟨hrewires, hlast⟩ := linkLayers_wired (nodup_layersDown 0 _)
      (fun layer _ => hunlinked layer) hne hwired hlinked
    have hnodes : linked.1.nodes ≠ [] := by
      rw [← List.length_pos_iff, hrewires.length]
      simp [withNode]
    have hmax : linked.1.maxLevel = index.maxLevel := by
      rw [hrewires.rest]
      rfl
    have hall (bound : ℕ) (hbound : index.maxLevel ≤ bound)
        (hnew : deterministicLevel record.id ≤ bound) :
        ∀ node ∈ linked.1.nodes, node.level ≤ bound := by
      refine hrewires.levels fun node hnode => ?_
      rcases List.mem_append.mp hnode with hold | hsingle
      · exact (hshaped.levels node hold).trans hbound
      · rwa [List.mem_singleton.mp hsingle]
    by_cases hhigher : index.maxLevel < deterministicLevel record.id
    · rw [if_pos hhigher] at h
      cases h
      exact ⟨hlast, hall _ hhigher.le (le_refl _), fun hempty => absurd hempty hnodes⟩
    · rw [if_neg hhigher] at h
      cases h
      refine ⟨hlast, ?_, fun hempty => absurd hempty hnodes⟩
      rw [hmax]
      exact hall _ (le_refl _) (not_lt.mp hhigher)

theorem Shaped.insertAll {dimension : ℕ} {records : List Record} (hbuilt : index.Built S dimension)
    (hshaped : index.Shaped index.config.m)
    (hrecords : ∀ record ∈ records, Comparable S index.metric dimension record.vector.values)
    (h : records.foldlM (HnswIndex.insert S) index = .ok index') :
    index'.Shaped index.config.m := by
  induction records generalizing index with
  | nil =>
    cases h
    exact hshaped
  | cons head rest ih =>
    rw [List.foldlM_cons] at h
    obtain ⟨middle, hmiddle, h⟩ := except_bind_ok.mp h
    obtain ⟨other, hother, hbuilt', hsame, -⟩ :=
      hbuilt.insert_ok (hrecords head (List.mem_cons_self ..))
    rw [hmiddle] at hother
    cases hother
    have hshaped' := hshaped.insert hbuilt hmiddle
    rw [← hsame.config] at hshaped'
    have hlast := ih hbuilt' hshaped' (fun record hrecord => by
      rw [hsame.metric]
      exact hrecords record (List.mem_cons_of_mem _ hrecord)) h
    rwa [hsame.config] at hlast

theorem empty_shaped (collectionId : CollectionId) (metric : DistanceMetric) (config : HnswConfig)
    (head : Option ℕ) (m : ℕ) :
    Shaped (⟨collectionId, metric, config, head, [], none, 0⟩ : HnswIndex) m := by
  refine ⟨fun position layer neighbors hneighbors => ?_, nofun, fun _ => rfl⟩
  obtain ⟨node, hnode, -⟩ := getNeighbors_ok_iff.mp hneighbors
  simp at hnode

theorem shaped_of_build {segments : List Segment} {collectionId : CollectionId}
    {metric : DistanceMetric} {config : HnswConfig}
    (h : build S segments collectionId metric config = .ok index) : index.Shaped config.m := by
  obtain ⟨validated, hvalidated, hbuild⟩ := except_bind_ok.mp h
  obtain ⟨rfl, -⟩ := HnswConfig.validate_ok_iff.mp hvalidated
  obtain ⟨⟨⟩, hchecked, hinsert⟩ := except_bind_ok.mp hbuild
  exact (empty_shaped ..).insertAll (empty_built ..) (forM_checkRecord_ok_iff.mp hchecked) hinsert

end Link

end HnswIndex

end Ketebe
