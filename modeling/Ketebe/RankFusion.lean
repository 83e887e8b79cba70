import Ketebe.HybridQuery
import Ketebe.Lib.BoundedSort
import Ketebe.Lib.KeyedTable
import Mathlib.Algebra.Order.Field.Basic
import Mathlib.Data.Rat.Defs

/-!
Fusion of ranks in exact arithmetic. The hits of two rankings are merged by id, so that a
record of both adds up what its two ranks are worth, and sorted again.
-/
namespace Ketebe.HybridQuery

open Lib.BoundedSort Lib.KeyedTable

instance : FusionArith ℚ where
  rankScore rrfK rank := 1 / (rrfK + rank)
  add := (· + ·)
  totalCmp := compare

/-! ### Places -/

section Places

variable {α : Type} {idOf : α → RecordId} {hits : List α} {id : RecordId}

/-- The hit of a record with its place in the list. -/
def placed (idOf : α → RecordId) (hits : List α) (id : RecordId) : Option (α × ℕ) :=
  hits.zipIdx.find? fun entry => idOf entry.1 = id

theorem placed_some {entry : α × ℕ} (h : placed idOf hits id = some entry) :
    hits[entry.2]? = some entry.1 ∧ idOf entry.1 = id := by
  have hid := List.find?_some h
  exact ⟨List.mem_zipIdx_iff_getElem?.mp (List.mem_of_find?_eq_some h), of_decide_eq_true hid⟩

theorem mem_of_placed {entry : α × ℕ} (h : placed idOf hits id = some entry) :
    id ∈ hits.map idOf := by
  obtain ⟨hhit, hid⟩ := placed_some h
  rw [← hid]
  exact List.mem_map_of_mem (List.mem_of_getElem? hhit)

theorem placed_isSome (h : id ∈ hits.map idOf) : ∃ entry, placed idOf hits id = some entry := by
  obtain ⟨hit, hmem, hid⟩ := List.mem_map.mp h
  obtain ⟨place, hplace⟩ := List.getElem?_of_mem hmem
  rw [← Option.isSome_iff_exists, placed, List.find?_isSome]
  exact ⟨(hit, place), List.mem_zipIdx_iff_getElem?.mpr hplace, decide_eq_true hid⟩

/-- The rank of a record in a list without duplicates. -/
theorem rank_iff (hnodup : (hits.map idOf).Nodup) (rank : ℕ) :
    (placed idOf hits id).map (·.2 + 1) = some rank ↔
      ∃ place, rank = place + 1 ∧ (hits.map idOf)[place]? = some id := by
  constructor
  · intro h
    obtain ⟨entry, hentry, rfl⟩ := Option.map_eq_some_iff.mp h
    obtain ⟨hhit, hid⟩ := placed_some hentry
    exact ⟨entry.2, rfl, by rw [List.getElem?_map, hhit, Option.map_some, hid]⟩
  · rintro ⟨place, rfl, hplace⟩
    obtain ⟨entry, hentry⟩ := placed_isSome (List.mem_of_getElem? hplace)
    obtain ⟨hhit, hid⟩ := placed_some hentry
    have hfound : (hits.map idOf)[entry.2]? = some id := by
      rw [List.getElem?_map, hhit, Option.map_some, hid]
    have hsame : entry.2 = place := by
      obtain ⟨hlt, -⟩ := List.getElem?_eq_some_iff.mp hfound
      exact (List.getElem?_inj hlt hnodup).mp (hfound.trans hplace.symm)
    rw [hentry, Option.map_some, hsame]

end Places

/-! ### Fused hits -/

section Fused

variable {S : Type} {dense : List (PlannedSearchHit S)} {lexical : List LexicalHit}
variable {id : RecordId} {rrfK : ℕ}

/-- What a rank is worth; no rank is worth nothing. -/
def rankWorth (rrfK : ℕ) (rank : Option ℕ) : ℚ := rank.elim 0 fun rank => 1 / (rrfK + rank)

def denseEntry (rrfK : ℕ) (entry : PlannedSearchHit S × ℕ) : FusedHit ℚ S :=
  ⟨entry.1.record, 1 / (rrfK + (entry.2 + 1 : ℕ)), some (entry.2 + 1), none, some entry.1.score, none⟩

def lexicalEntry (rrfK : ℕ) (entry : LexicalHit × ℕ) : Option (FusedHit ℚ S) → FusedHit ℚ S
  | some found => { found with
      score := found.score + 1 / (rrfK + (entry.2 + 1 : ℕ))
      lexicalRank := some (entry.2 + 1)
      lexicalScore := some entry.1.score }
  | none => ⟨entry.1.record, 1 / (rrfK + (entry.2 + 1 : ℕ)), none, some (entry.2 + 1), none,
      some entry.1.score⟩

/-- The fused hit of a record, from its places in both lists. -/
def fusedAt (rrfK : ℕ) (dense : List (PlannedSearchHit S)) (lexical : List LexicalHit)
    (id : RecordId) : Option (FusedHit ℚ S) :=
  (placed (·.record.id) lexical id).elim
    ((placed (·.record.id) dense id).map (denseEntry rrfK)) fun entry =>
      some (lexicalEntry rrfK entry ((placed (·.record.id) dense id).map (denseEntry rrfK)))

/-- The hits of both lists by their ids. -/
def fusedTable (rrfK : ℕ) (dense : List (PlannedSearchHit S)) (lexical : List LexicalHit) :
    Fused ℚ S :=
  lexical.zipIdx.foldl (fun fused entry =>
      fused.insert entry.1.record.id (lexicalEntry rrfK entry fused[entry.1.record.id]?))
    (dense.zipIdx.foldl (fun fused entry =>
      fused.insert entry.1.record.id (denseEntry rrfK entry)) ∅)

def ranking (rrfK : ℕ) (dense : List (PlannedSearchHit S)) (lexical : List LexicalHit) :
    List (FusedHit ℚ S) :=
  (values (fusedTable rrfK dense lexical)).mergeSort fun left right =>
    (compareHits left right).isLE

theorem checkEvery_of_check {control : QueryControl} (hcontrol : control.check = .ok ())
    (period index : ℕ) : Search.checkEvery period index control = .ok () := by
  unfold Search.checkEvery
  split
  · exact hcontrol
  · rfl

/-- Under a control that lets it run, the fusion is that of the table. -/
theorem fuse_eq {control : QueryControl} (hcontrol : control.check = .ok ()) (topK : ℕ) :
    fuse rrfK topK control dense lexical = .ok ((ranking rrfK dense lexical).take topK) := by
  have hdense : (fuseDense rrfK control : Fused ℚ S → _) = fun fused entry =>
      pure (fused.insert entry.1.record.id (denseEntry rrfK entry)) := by
    funext fused entry
    rw [fuseDense, checkEvery_of_check hcontrol]
    rfl
  have hlexical : (fuseLexical rrfK control : Fused ℚ S → _) = fun fused entry =>
      pure (fused.insert entry.1.record.id
        (lexicalEntry rrfK entry fused[entry.1.record.id]?)) := by
    funext fused entry
    rw [fuseLexical, checkEvery_of_check hcontrol]
    cases fused[entry.1.record.id]? <;> rfl
  rw [fuse, hdense, hlexical, List.foldlM_pure, pure_bind, List.foldlM_pure]
  rfl

theorem map_zipIdx_fst {α β : Type} (f : α → β) (hits : List α) :
    hits.zipIdx.map (fun entry => f entry.1) = hits.map f := by
  calc hits.zipIdx.map (f ∘ Prod.fst) = (hits.zipIdx.map Prod.fst).map f := List.map_map.symm
    _ = hits.map f := by rw [List.zipIdx_map_fst]

/-- What is known of a record is found at its places in both lists. -/
theorem getElem?_fusedTable (hdense : (dense.map (·.record.id)).Nodup)
    (hlexical : (lexical.map (·.record.id)).Nodup) (id : RecordId) :
    (fusedTable rrfK dense lexical)[id]? = fusedAt rrfK dense lexical id := by
  have hfound : (dense.zipIdx.foldl (fun (fused : Fused ℚ S) entry =>
      fused.insert entry.1.record.id (denseEntry rrfK entry)) ∅)[id]? =
        (placed (·.record.id) dense id).map (denseEntry rrfK) := by
    have hkeys := hdense
    rw [← map_zipIdx_fst] at hkeys
    refine (getElem?_foldl_put (fun entry : PlannedSearchHit S × ℕ => entry.1.record.id)
      (fun entry _ => denseEntry rrfK entry) hkeys ∅ id).trans ?_
    rw [Std.ExtTreeMap.getElem?_empty]
    cases h : placed (·.record.id) dense id <;> exact congrArg (Option.elim · none _) h
  have hkeys := hlexical
  rw [← map_zipIdx_fst] at hkeys
  refine (getElem?_foldl_put (fun entry : LexicalHit × ℕ => entry.1.record.id)
    (lexicalEntry rrfK) hkeys _ id).trans ?_
  rw [hfound]
  rfl

/-! ### The ranking -/

/-- What a fused hit says of the places of its record. -/
structure FusedFrom (rrfK : ℕ) (dense : List (PlannedSearchHit S)) (lexical : List LexicalHit)
    (hit : FusedHit ℚ S) : Prop where
  denseRank : hit.denseRank = (placed (·.record.id) dense hit.record.id).map (·.2 + 1)
  lexicalRank : hit.lexicalRank = (placed (·.record.id) lexical hit.record.id).map (·.2 + 1)
  denseScore : hit.denseScore = (placed (·.record.id) dense hit.record.id).map (·.1.score)
  lexicalScore : hit.lexicalScore = (placed (·.record.id) lexical hit.record.id).map (·.1.score)
  score : hit.score = rankWorth rrfK hit.denseRank + rankWorth rrfK hit.lexicalRank

theorem fusedAt_some {hit : FusedHit ℚ S} (h : fusedAt rrfK dense lexical id = some hit) :
    hit.record.id = id ∧ FusedFrom rrfK dense lexical hit := by
  unfold fusedAt at h
  cases hdense : placed (·.record.id) dense id with
  | none =>
    cases hlexical : placed (·.record.id) lexical id with
    | none =>
      rw [hdense, hlexical] at h
      cases h
    | some entry =>
      rw [hdense, hlexical] at h
      cases h
      have hid : entry.1.record.id = id := (placed_some hlexical).2
      refine ⟨hid, ?_, ?_, ?_, ?_, (zero_add _).symm⟩
      all_goals simp only [lexicalEntry, Option.map_none, hid, hdense, hlexical, Option.map_some]
  | some found =>
    have hid : found.1.record.id = id := (placed_some hdense).2
    cases hlexical : placed (·.record.id) lexical id with
    | none =>
      rw [hdense, hlexical] at h
      cases h
      refine ⟨hid, ?_, ?_, ?_, ?_, (add_zero _).symm⟩
      all_goals simp only [denseEntry, hid, hdense, hlexical, Option.map_some, Option.map_none]
    | some entry =>
      rw [hdense, hlexical] at h
      cases h
      refine ⟨hid, ?_, ?_, ?_, ?_, rfl⟩
      all_goals
        simp only [lexicalEntry, denseEntry, Option.map_some, hid, hdense, hlexical]

theorem fusedAt_isSome :
    (∃ hit, fusedAt rrfK dense lexical id = some hit) ↔
      id ∈ dense.map (·.record.id) ∨ id ∈ lexical.map (·.record.id) := by
  constructor
  · intro ⟨hit, h⟩
    unfold fusedAt at h
    cases hlexical : placed (·.record.id) lexical id with
    | some entry => exact .inr (mem_of_placed hlexical)
    | none =>
      rw [hlexical] at h
      obtain ⟨entry, hdense, -⟩ := Option.map_eq_some_iff.mp h
      exact .inl (mem_of_placed hdense)
  · intro h
    unfold fusedAt
    cases hlexical : placed (·.record.id) lexical id with
    | some entry => exact ⟨_, rfl⟩
    | none =>
      obtain hmem | hmem := h
      · obtain ⟨entry, hdense⟩ := placed_isSome hmem
        exact ⟨denseEntry rrfK entry, by rw [hdense]; rfl⟩
      · obtain ⟨entry, hsome⟩ := placed_isSome hmem
        rw [hsome] at hlexical
        cases hlexical

/-- One hit stands before another: it scores higher, or the same with a smaller id. -/
def Precedes (left right : FusedHit ℚ S) : Prop :=
  right.score < left.score ∨ left.score = right.score ∧ left.record.id < right.record.id

instance : Std.TransCmp (compareHits : FusedHit ℚ S → FusedHit ℚ S → Ordering) :=
  inferInstanceAs (Std.TransCmp (compareLex
    (fun left right : FusedHit ℚ S => compareOn FusedHit.score right left)
    (compareOn fun hit : FusedHit ℚ S => hit.record.id)))

theorem precedes_of_isLE {left right : FusedHit ℚ S} (hid : left.record.id ≠ right.record.id)
    (h : (compareHits left right).isLE) : Precedes left right := by
  change ((compare right.score left.score).then
    (compare left.record.id right.record.id)).isLE at h
  rcases hscore : compare right.score left.score with _ | _ | _
  · exact .inl (compare_lt_iff_lt.mp hscore)
  · rw [hscore] at h
    have hle : left.record.id ≤ right.record.id := compare_le_iff_le.mp (Ordering.isLE_iff_ne_gt.mp h)
    exact .inr ⟨(compare_eq_iff_eq.mp hscore).symm, lt_of_le_of_ne hle hid⟩
  · rw [hscore] at h
    cases h

/-- The ranking of two lists, hit by hit. -/
structure ExactFusion (rrfK : ℕ) (dense : List (PlannedSearchHit S)) (lexical : List LexicalHit)
    (ranking : List (FusedHit ℚ S)) : Prop where
  distinct : (ranking.map (·.record.id)).Nodup
  members (id : RecordId) : id ∈ ranking.map (·.record.id) ↔
    id ∈ dense.map (·.record.id) ∨ id ∈ lexical.map (·.record.id)
  denseRank (hit : FusedHit ℚ S) : hit ∈ ranking → ∀ rank, hit.denseRank = some rank ↔
    ∃ place, rank = place + 1 ∧ (dense.map (·.record.id))[place]? = some hit.record.id
  lexicalRank (hit : FusedHit ℚ S) : hit ∈ ranking → ∀ rank, hit.lexicalRank = some rank ↔
    ∃ place, rank = place + 1 ∧ (lexical.map (·.record.id))[place]? = some hit.record.id
  score (hit : FusedHit ℚ S) : hit ∈ ranking →
    hit.score = rankWorth rrfK hit.denseRank + rankWorth rrfK hit.lexicalRank
  sorted : ranking.Pairwise Precedes

theorem fusedTable_keyed (hdense : (dense.map (·.record.id)).Nodup)
    (hlexical : (lexical.map (·.record.id)).Nodup) :
    Keyed (·.record.id) (fusedTable rrfK dense lexical) := by
  intro id hit h
  rw [getElem?_fusedTable hdense hlexical] at h
  exact (fusedAt_some h).1

theorem mem_ranking (hdense : (dense.map (·.record.id)).Nodup)
    (hlexical : (lexical.map (·.record.id)).Nodup) {hit : FusedHit ℚ S} :
    hit ∈ ranking rrfK dense lexical ↔ fusedAt rrfK dense lexical hit.record.id = some hit := by
  rw [ranking, List.mem_mergeSort, (fusedTable_keyed hdense hlexical).mem_values,
    getElem?_fusedTable hdense hlexical]

theorem ranking_exact (rrfK : ℕ) (hdense : (dense.map (·.record.id)).Nodup)
    (hlexical : (lexical.map (·.record.id)).Nodup) :
    ExactFusion rrfK dense lexical (ranking rrfK dense lexical) := by
  have hmem {hit : FusedHit ℚ S} : hit ∈ ranking rrfK dense lexical ↔ _ :=
    mem_ranking hdense hlexical
  have hdistinct : ((ranking rrfK dense lexical).map (·.record.id)).Nodup :=
    ((List.mergeSort_perm _ _).map _).nodup_iff.mpr (fusedTable_keyed hdense hlexical).nodup
  refine ⟨hdistinct, fun id => ?_, fun hit h rank => ?_, fun hit h rank => ?_, fun hit h => ?_, ?_⟩
  · rw [List.mem_map, ← fusedAt_isSome]
    constructor
    · intro ⟨hit, hhit, hid⟩
      exact ⟨hit, hid ▸ hmem.mp hhit⟩
    · intro ⟨hit, hhit⟩
      have hid := (fusedAt_some hhit).1
      exact ⟨hit, hmem.mpr (hid ▸ hhit), hid⟩
  · rw [(fusedAt_some (hmem.mp h)).2.denseRank, rank_iff hdense]
  · rw [(fusedAt_some (hmem.mp h)).2.lexicalRank, rank_iff hlexical]
  · exact (fusedAt_some (hmem.mp h)).2.score
  · have hsorted := pairwise_mergeSort_isLE compareHits (values (fusedTable rrfK dense lexical))
    exact (hsorted.and (List.pairwise_map.mp hdistinct)).imp fun hboth =>
      precedes_of_isLE hboth.2 hboth.1

/-! ### Ranks in both lists -/

theorem rankWorth_pos {rank : ℕ} (hrank : 0 < rank) : 0 < rankWorth rrfK (some rank) := by
  have hsum : (0 : ℚ) < rrfK + rank := by positivity
  exact one_div_pos.mpr hsum

theorem rankWorth_le {rank other : ℕ} (hrank : 0 < rank) (hle : rank ≤ other) :
    rankWorth rrfK (some other) ≤ rankWorth rrfK (some rank) := by
  have hsum : (0 : ℚ) < rrfK + rank := by positivity
  have hcast : (rank : ℚ) ≤ other := Nat.cast_le.mpr hle
  exact one_div_le_one_div_of_le hsum (add_le_add_right hcast _)

/-- Two ranks are worth more than one that is no better than both. -/
theorem rankWorth_lt {first second other : ℕ} (hfirst : 0 < first) (hsecond : 0 < second)
    (hle : min first second ≤ other) :
    rankWorth rrfK (some other) < rankWorth rrfK (some first) + rankWorth rrfK (some second) := by
  obtain hle | hle := min_le_iff.mp hle
  · calc rankWorth rrfK (some other) ≤ rankWorth rrfK (some first) := rankWorth_le hfirst hle
      _ < rankWorth rrfK (some first) + rankWorth rrfK (some second) :=
        lt_add_of_pos_right _ (rankWorth_pos hsecond)
  · calc rankWorth rrfK (some other) ≤ rankWorth rrfK (some second) := rankWorth_le hsecond hle
      _ < rankWorth rrfK (some first) + rankWorth rrfK (some second) :=
        lt_add_of_pos_left _ (rankWorth_pos hfirst)

/-- The hit has the rank in one of the lists only. -/
def OnlyRank (hit : FusedHit ℚ S) (rank : ℕ) : Prop :=
  hit.denseRank = some rank ∧ hit.lexicalRank = none ∨
    hit.denseRank = none ∧ hit.lexicalRank = some rank

theorem ExactFusion.both_precedes {ranking : List (FusedHit ℚ S)}
    (h : ExactFusion rrfK dense lexical ranking) {both one : FusedHit ℚ S} (hboth : both ∈ ranking)
    (hone : one ∈ ranking) {first second rank : ℕ} (hfirst : both.denseRank = some first)
    (hsecond : both.lexicalRank = some second) (honly : OnlyRank one rank)
    (hle : min first second ≤ rank) : Precedes both one := by
  have hscore : one.score = rankWorth rrfK (some rank) := by
    rw [h.score one hone]
    obtain ⟨hdense, hlexical⟩ | ⟨hdense, hlexical⟩ := honly
    · rw [hdense, hlexical]
      exact add_zero _
    · rw [hdense, hlexical]
      exact zero_add _
  obtain ⟨place, rfl, -⟩ := (h.denseRank both hboth first).mp hfirst
  obtain ⟨other, rfl, -⟩ := (h.lexicalRank both hboth second).mp hsecond
  left
  rw [hscore, h.score both hboth, hfirst, hsecond]
  exact rankWorth_lt place.succ_pos other.succ_pos hle

/-- A control that stops the first check lets nothing but empty lists through. -/
theorem fuse_ok {control : QueryControl} {topK : ℕ} {hits : List (FusedHit ℚ S)}
    (h : fuse rrfK topK control dense lexical = .ok hits) :
    hits = (ranking rrfK dense lexical).take topK := by
  cases hcontrol : control.check with
  | ok checked =>
    rw [fuse_eq hcontrol] at h
    exact (Except.ok.inj h).symm
  | error error =>
    have hcheck : Search.checkEvery 128 0 control = .error error := hcontrol
    cases dense with
    | cons first rest =>
      rw [fuse, List.zipIdx_cons, List.foldlM_cons, fuseDense, hcheck] at h
      cases h
    | nil =>
      cases lexical with
      | cons first rest =>
        rw [fuse, List.zipIdx_nil, List.foldlM_nil, pure_bind, List.zipIdx_cons, List.foldlM_cons,
          fuseLexical, hcheck] at h
        cases h
      | nil =>
        cases h
        rfl

/-- What fusion answers is cut from the exact ranking of both lists. -/
theorem fuse_exact (rrfK topK : ℕ) (control : QueryControl)
    (hdense : (dense.map (·.record.id)).Nodup) (hlexical : (lexical.map (·.record.id)).Nodup) :
    ∃ ranking : List (FusedHit ℚ S), ExactFusion rrfK dense lexical ranking ∧
      (control.check = .ok () → fuse rrfK topK control dense lexical = .ok (ranking.take topK)) ∧
      (∀ hits, fuse rrfK topK control dense lexical = .ok hits → hits = ranking.take topK) ∧
      (∀ kept ∈ ranking.take topK, ∀ dropped ∈ ranking.drop topK, Precedes kept dropped) ∧
      ∀ both ∈ ranking, ∀ one ∈ ranking, ∀ first second rank, both.denseRank = some first →
        both.lexicalRank = some second → OnlyRank one rank → min first second ≤ rank →
          Precedes both one := by
  have hexact := ranking_exact rrfK hdense hlexical
  refine ⟨ranking rrfK dense lexical, hexact, fun hcontrol => fuse_eq hcontrol topK,
    fun hits => fuse_ok, pairwise_take_drop hexact.sorted topK, ?_⟩
  intro both hboth one hone first second rank hfirst hsecond
  exact hexact.both_precedes hboth hone hfirst hsecond

def rankedRecord (id : UInt64) : Record := ⟨.unsigned id, ⟨[⟨0⟩], Vector.finite_zero⟩, .empty, 1⟩

def rankedDense : List (PlannedSearchHit ℚ) := [⟨rankedRecord 2, 3⟩, ⟨rankedRecord 1, 2⟩]

def rankedLexical : List LexicalHit := [⟨rankedRecord 1, .one⟩, ⟨rankedRecord 3, .one⟩]

/-- Record 1 stands in both lists. -/
theorem fuse_exact_overlapping :
    ∃ ranking, ExactFusion 60 rankedDense rankedLexical ranking ∧
      fuse 60 2 .unbounded rankedDense rankedLexical = .ok (ranking.take 2) := by
  have hdense : (rankedDense.map (·.record.id)).Nodup := by decide
  have hlexical : (rankedLexical.map (·.record.id)).Nodup := by decide
  obtain ⟨ranking, hexact, hfuse, -⟩ := fuse_exact 60 2 .unbounded hdense hlexical
  exact ⟨ranking, hexact, hfuse QueryControl.check_unbounded⟩

end Fused

end Ketebe.HybridQuery
