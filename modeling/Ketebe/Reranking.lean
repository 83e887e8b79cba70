import Ketebe.Collection
import Ketebe.Lib.BoundedSort
import Ketebe.Lib.ByteCodec
import Ketebe.Predicate
import Ketebe.TokenChunking
import Mathlib.Data.List.Perm.Subperm
import Mathlib.Data.List.Range

/-!
Reranking of candidates. A provider answers a score for each candidate by its index; its
answer is checked before the candidates are sorted by it.
-/
namespace Ketebe

namespace F32

def partialCmp (left right : F32) : Option Ordering :=
  if left.isNan || right.isNan then none else some (compare left.signedKey right.signedKey)

theorem isNan_of_isFinite {value : F32} (h : value.isFinite) : value.isNan = false := by
  unfold isFinite at h
  unfold isNan magnitude
  simp only [bne_iff_ne, ne_eq] at h
  simp only [decide_eq_false_iff_not, not_lt]
  omega

theorem partialCmp_of_isFinite {left right : F32} (hleft : left.isFinite)
    (hright : right.isFinite) :
    left.partialCmp right = some (compare left.signedKey right.signedKey) := by
  rw [partialCmp, isNan_of_isFinite hleft, isNan_of_isFinite hright]
  rfl

end F32

structure RerankCandidate where
  id : RecordId
  text : String
  metadata : Metadata
  retrievalScore : F32

structure RerankScore where
  index : ℕ
  score : F32
  deriving DecidableEq

structure RerankerError where
  message : String
  retryable : Bool
  deriving DecidableEq

/-- A provider with what it answers to a query. -/
structure Reranker where
  name : String
  rerank : String → List RerankCandidate → Except RerankerError (List RerankScore)

inductive RerankFailurePolicy where
  | fail
  | preserveCandidateOrder
  deriving DecidableEq

structure RerankedCandidate where
  candidate : RerankCandidate
  rerankScore : Option F32
  originalRank : ℕ

structure RerankExplain where
  provider : String
  inputCandidates : ℕ
  outputCandidates : ℕ
  applied : Bool
  fallbackReason : Option String

structure RerankResult where
  candidates : List RerankedCandidate
  explain : RerankExplain

inductive RerankingError where
  | invalidConfig (message : String)
  | invalidRequest (message : String)
  | provider (error : RerankerError)
  | panicked (message : String)
  deriving DecidableEq

namespace Reranking

open Lib.BoundedSort Lib.ByteCodec

/-! ### Scores -/

def checkScore (candidateCount : ℕ) (seen : List Bool) (score : RerankScore) :
    Except RerankingError (List Bool) :=
  if candidateCount ≤ score.index then
    .error (.provider
      ⟨s!"reranker returned out-of-range candidate index {score.index}", false⟩)
  else if seen[score.index]? = some true then
    .error (.provider ⟨s!"reranker returned duplicate candidate index {score.index}", false⟩)
  else if !score.score.isFinite then
    .error (.provider
      ⟨s!"reranker returned non-finite score for candidate {score.index}", false⟩)
  else .ok (seen.set score.index true)

def validateScores (scores : List RerankScore) (candidateCount : ℕ) :
    Except RerankingError Unit :=
  if scores.length ≠ candidateCount then
    .error (.provider
      ⟨s!"reranker returned {scores.length} scores for {candidateCount} candidates", false⟩)
  else do
    let _ ← scores.foldlM (checkScore candidateCount) (List.replicate candidateCount false)
    pure ()

/-- One finite score for each candidate. -/
structure Complete (candidateCount : ℕ) (scores : List RerankScore) : Prop where
  length : scores.length = candidateCount
  inRange : ∀ score ∈ scores, score.index < candidateCount
  distinct : (scores.map (·.index)).Nodup
  finite : ∀ score ∈ scores, score.score.isFinite

theorem checkScore_ok {candidateCount : ℕ} {seen next : List Bool} {score : RerankScore} :
    checkScore candidateCount seen score = .ok next ↔
      score.index < candidateCount ∧ seen[score.index]? ≠ some true ∧ score.score.isFinite ∧
        seen.set score.index true = next := by
  unfold checkScore
  split
  · rename_i hrange
    exact ⟨nofun, fun h => absurd h.1 (not_lt.mpr hrange)⟩
  · rename_i hrange
    split
    · rename_i hseen
      exact ⟨nofun, fun h => absurd hseen h.2.1⟩
    · rename_i hseen
      split
      · rename_i hfinite
        rw [Bool.not_eq_true'] at hfinite
        exact ⟨nofun, fun h => absurd (hfinite.symm.trans h.2.2.1) Bool.false_ne_true⟩
      · rename_i hfinite
        rw [Bool.not_eq_true', Bool.not_eq_false] at hfinite
        exact ⟨fun h => ⟨not_le.mp hrange, hseen, hfinite, Except.ok.inj h⟩,
          fun h => congrArg Except.ok h.2.2.2⟩

/-- Indices seen so far are never scored again. -/
theorem checkScores_ok {candidateCount : ℕ} {scores : List RerankScore} {seen : List Bool}
    (hlength : seen.length = candidateCount) :
    (∃ last, scores.foldlM (checkScore candidateCount) seen = .ok last) ↔
      (∀ score ∈ scores, score.index < candidateCount ∧ seen[score.index]? ≠ some true ∧
        score.score.isFinite) ∧ (scores.map (·.index)).Nodup := by
  induction scores generalizing seen with
  | nil => exact ⟨fun _ => ⟨nofun, List.nodup_nil⟩, fun _ => ⟨seen, rfl⟩⟩
  | cons score rest ih =>
    have hset : (seen.set score.index true).length = candidateCount := by
      rw [List.length_set, hlength]
    rw [List.foldlM_cons]
    constructor
    · intro ⟨last, h⟩
      obtain ⟨next, hnext, hrest⟩ := except_bind_ok.mp h
      obtain ⟨hrange, hseen, hfinite, rfl⟩ := checkScore_ok.mp hnext
      obtain ⟨hall, hnodup⟩ := (ih hset).mp ⟨last, hrest⟩
      refine ⟨List.forall_mem_cons.mpr ⟨⟨hrange, hseen, hfinite⟩, fun other hother => ?_⟩,
        List.nodup_cons.mpr ⟨fun hmem => ?_, hnodup⟩⟩
      · obtain ⟨hother, hunseen, hotherFinite⟩ := hall other hother
        refine ⟨hother, fun htrue => hunseen ?_, hotherFinite⟩
        rw [List.getElem?_set]
        split
        · rw [if_pos (hlength ▸ hrange)]
        · exact htrue
      · obtain ⟨other, hother, hsame⟩ := List.mem_map.mp hmem
        refine (hall other hother).2.1 ?_
        rw [hsame, List.getElem?_set_self (hlength ▸ hrange)]
    · intro ⟨hall, hnodup⟩
      obtain ⟨⟨hrange, hseen, hfinite⟩, hrest⟩ := List.forall_mem_cons.mp hall
      obtain ⟨hnew, hrestNodup⟩ := List.nodup_cons.mp hnodup
      have hunseen : ∀ other ∈ rest, other.index < candidateCount ∧
          (seen.set score.index true)[other.index]? ≠ some true ∧ other.score.isFinite := by
        intro other hother
        obtain ⟨hotherRange, hotherSeen, hotherFinite⟩ := hrest other hother
        have hne : score.index ≠ other.index := fun hsame =>
          hnew (List.mem_map.mpr ⟨other, hother, hsame.symm⟩)
        rw [List.getElem?_set_ne hne]
        exact ⟨hotherRange, hotherSeen, hotherFinite⟩
      obtain ⟨last, hlast⟩ := (ih hset).mpr ⟨hunseen, hrestNodup⟩
      exact ⟨last, except_bind_ok.mpr ⟨_, checkScore_ok.mpr ⟨hrange, hseen, hfinite, rfl⟩, hlast⟩⟩

theorem validateScores_ok {scores : List RerankScore} {candidateCount : ℕ} :
    validateScores scores candidateCount = .ok () ↔ Complete candidateCount scores := by
  unfold validateScores
  split
  · rename_i hlength
    exact ⟨nofun, fun h => absurd h.length hlength⟩
  · rename_i hlength
    have hfalse : ∀ index : ℕ, (List.replicate candidateCount false)[index]? ≠ some true := by
      intro index htrue
      rw [List.getElem?_replicate] at htrue
      split at htrue <;> cases htrue
    have hchecks : (∃ last, scores.foldlM (checkScore candidateCount)
        (List.replicate candidateCount false) = .ok last) ↔ _ := checkScores_ok List.length_replicate
    constructor
    · intro h
      obtain ⟨last, hlast, -⟩ := except_bind_ok.mp h
      obtain ⟨hall, hnodup⟩ := hchecks.mp ⟨last, hlast⟩
      exact ⟨not_not.mp hlength, fun score h => (hall score h).1, hnodup,
        fun score h => (hall score h).2.2⟩
    · intro h
      obtain ⟨last, hlast⟩ := hchecks.mpr ⟨fun score hscore =>
        ⟨h.inRange score hscore, hfalse _, h.finite score hscore⟩, h.distinct⟩
      exact except_bind_ok.mpr ⟨last, hlast, rfl⟩

theorem checkScore_error {candidateCount : ℕ} {seen : List Bool} {score : RerankScore}
    {error : RerankingError} (h : checkScore candidateCount seen score = .error error) :
    ∃ failure, error = .provider failure := by
  unfold checkScore at h
  split at h
  · exact ⟨_, (Except.error.inj h).symm⟩
  · split at h
    · exact ⟨_, (Except.error.inj h).symm⟩
    · split at h
      · exact ⟨_, (Except.error.inj h).symm⟩
      · cases h

theorem checkScores_error {candidateCount : ℕ} {scores : List RerankScore} {seen : List Bool}
    {error : RerankingError} (h : scores.foldlM (checkScore candidateCount) seen = .error error) :
    ∃ failure, error = .provider failure := by
  induction scores generalizing seen with
  | nil => cases h
  | cons score rest ih =>
    rw [List.foldlM_cons] at h
    cases hcheck : checkScore candidateCount seen score with
    | ok next =>
      rw [hcheck] at h
      exact ih h
    | error first =>
      rw [hcheck] at h
      exact Except.error.inj h ▸ checkScore_error hcheck

/-- Whatever is wrong with the scores is the provider's error. -/
theorem validateScores_error {scores : List RerankScore} {candidateCount : ℕ}
    {error : RerankingError} (h : validateScores scores candidateCount = .error error) :
    ∃ failure, error = .provider failure := by
  unfold validateScores at h
  split at h
  · exact ⟨_, (Except.error.inj h).symm⟩
  · cases hcheck : scores.foldlM (checkScore candidateCount) (List.replicate candidateCount false) with
    | ok last =>
      rw [hcheck] at h
      cases h
    | error first =>
      rw [hcheck] at h
      exact Except.error.inj h ▸ checkScores_error hcheck

/-! ### The order of the scores -/

/-- Optional scores compare as the source's options do: no score is the least. -/
def partialCmpScores : Option F32 → Option F32 → Option Ordering
  | none, none => some .eq
  | none, some _ => some .lt
  | some _, none => some .gt
  | some left, some right => left.partialCmp right

def compareReranked (left right : RerankedCandidate) : Ordering :=
  ((partialCmpScores right.rerankScore left.rerankScore).getD .eq).then
    (compare left.originalRank right.originalRank)

def scoreKey (value : RerankedCandidate) : ℤ := value.rerankScore.elim 0 F32.signedKey

/-- One candidate comes before another: it scores higher, or the same with a better rank. -/
def Precedes (left right : RerankedCandidate) : Prop :=
  scoreKey right < scoreKey left ∨
    scoreKey left = scoreKey right ∧ left.originalRank < right.originalRank

/-- The order of candidates with finite scores. -/
def compareKeys (left right : RerankedCandidate) : Ordering :=
  (compare (scoreKey right) (scoreKey left)).then (compare left.originalRank right.originalRank)

instance : Std.TransCmp compareKeys :=
  inferInstanceAs (Std.TransCmp (compareLex
    (fun left right : RerankedCandidate => compareOn scoreKey right left)
    (compareOn RerankedCandidate.originalRank)))

def FinitelyScored (value : RerankedCandidate) : Prop :=
  ∃ score, value.rerankScore = some score ∧ score.isFinite

theorem compareReranked_eq {left right : RerankedCandidate} (hleft : FinitelyScored left)
    (hright : FinitelyScored right) : compareReranked left right = compareKeys left right := by
  obtain ⟨score, hscore, hfinite⟩ := hleft
  obtain ⟨other, hother, hotherFinite⟩ := hright
  rw [compareReranked, compareKeys, scoreKey, scoreKey, hscore, hother, partialCmpScores,
    F32.partialCmp_of_isFinite hotherFinite hfinite]
  rfl

theorem precedes_of_isLE {left right : RerankedCandidate}
    (hrank : left.originalRank ≠ right.originalRank) (h : (compareKeys left right).isLE) :
    Precedes left right := by
  unfold compareKeys at h
  rcases hscore : compare (scoreKey right) (scoreKey left) with _ | _ | _
  · exact .inl (compare_lt_iff_lt.mp hscore)
  · rw [hscore] at h
    have hle := compare_le_iff_le.mp (Ordering.isLE_iff_ne_gt.mp h)
    exact .inr ⟨(compare_eq_iff_eq.mp hscore).symm, lt_of_le_of_ne hle hrank⟩
  · rw [hscore] at h
    cases h

theorem pairwise_precedes {scored : List RerankedCandidate}
    (hfinite : ∀ value ∈ scored, FinitelyScored value)
    (hranks : (scored.map (·.originalRank)).Nodup) :
    (scored.mergeSort fun left right => (compareReranked left right).isLE).Pairwise Precedes := by
  have hsame := List.map_mergeSort (f := id) (l := scored)
    (r := fun left right => (compareReranked left right).isLE)
    (s := fun left right => (compareKeys left right).isLE)
    fun left hleft right hright =>
      congrArg Ordering.isLE (compareReranked_eq (hfinite left hleft) (hfinite right hright))
  rw [List.map_id, List.map_id] at hsame
  rw [hsame]
  have hdistinct := ((List.mergeSort_perm scored fun left right =>
    (compareKeys left right).isLE).map (·.originalRank)).nodup_iff.mpr hranks
  have hsorted := pairwise_mergeSort_isLE compareKeys scored
  exact (hsorted.and (List.pairwise_map.mp hdistinct)).imp fun hboth =>
    precedes_of_isLE hboth.2 hboth.1

end Reranking

/-! ### The service -/

structure RerankingService where
  reranker : Reranker
  failurePolicy : RerankFailurePolicy

namespace RerankingService

open Lib.ByteCodec Reranking

variable (service : RerankingService) (query : String) (candidates : List RerankCandidate)
variable (finalTopK : ℕ)

/-- The answer without the provider's help. -/
def preserveCandidateOrder (error : RerankerError) : RerankResult :=
  ⟨(candidates.take finalTopK).zipIdx.map fun entry => ⟨entry.1, none, entry.2 + 1⟩,
    ⟨service.reranker.name, candidates.length, min candidates.length finalTopK, false,
      some error.message⟩⟩

def scoredCandidate (score : RerankScore) : Except RerankingError RerankedCandidate :=
  match candidates[score.index]? with
  | some candidate => .ok ⟨candidate, some score.score, score.index + 1⟩
  | none => .error (.panicked "index out of bounds")

def rankCandidates (scores : List RerankScore) : Except RerankingError RerankResult := do
  validateScores scores candidates.length
  let scored ← scores.mapM (scoredCandidate candidates)
  let sorted := scored.mergeSort fun left right => (compareReranked left right).isLE
  let kept := sorted.take finalTopK
  pure ⟨kept, ⟨service.reranker.name, candidates.length, kept.length, true, none⟩⟩

def rerank : Except RerankingError RerankResult :=
  if trim query = "" then .error (.invalidRequest "reranking query must not be empty")
  else if finalTopK = 0 then
    .error (.invalidRequest "final_top_k must be greater than zero")
  else if candidates.isEmpty then .ok ⟨[], ⟨service.reranker.name, 0, 0, false, none⟩⟩
  else if candidates.any fun candidate => trim candidate.text = "" then
    .error (.invalidRequest "reranking candidates must have non-empty projected text")
  else match service.reranker.rerank query candidates with
    | .ok scores => service.rankCandidates candidates finalTopK scores
    | .error error => match service.failurePolicy with
      | .fail => .error (.provider error)
      | .preserveCandidateOrder => .ok (service.preserveCandidateOrder candidates finalTopK error)

/-! ### The ranking -/

/-- The candidates in their original order, with their ranks and what each is scored. -/
def numbered (scoreOf : ℕ → Option F32) : List RerankedCandidate :=
  candidates.zipIdx.map fun entry => ⟨entry.1, scoreOf entry.2, entry.2 + 1⟩

def scoreAt (scores : List RerankScore) (index : ℕ) : Option F32 :=
  (scores.find? fun score => score.index = index).map (·.score)

def scoredList (scores : List RerankScore) : List RerankedCandidate :=
  scores.filterMap fun score =>
    candidates[score.index]?.map fun candidate => ⟨candidate, some score.score, score.index + 1⟩

variable {service query candidates finalTopK} {scores : List RerankScore}

theorem mem_numbered {scoreOf : ℕ → Option F32} {value : RerankedCandidate} :
    value ∈ numbered candidates scoreOf ↔ ∃ place, candidates[place]? = some value.candidate ∧
      value.rerankScore = scoreOf place ∧ value.originalRank = place + 1 := by
  rw [numbered, List.mem_map]
  constructor
  · rintro ⟨entry, hentry, rfl⟩
    exact ⟨entry.2, List.mem_zipIdx_iff_getElem?.mp hentry, rfl, rfl⟩
  · intro ⟨place, hplace, hscore, hrank⟩
    refine ⟨(value.candidate, place), List.mem_zipIdx_iff_getElem?.mpr hplace, ?_⟩
    rw [← hscore, ← hrank]

theorem map_candidate_numbered (candidates : List RerankCandidate) (scoreOf : ℕ → Option F32) :
    (numbered candidates scoreOf).map (·.candidate) = candidates := by
  calc (numbered candidates scoreOf).map (·.candidate)
      = candidates.zipIdx.map Prod.fst := List.map_map
    _ = candidates := List.zipIdx_map_fst 0 candidates

theorem length_numbered (scoreOf : ℕ → Option F32) :
    (numbered candidates scoreOf).length = candidates.length := by
  rw [numbered, List.length_map, List.length_zipIdx]

theorem numbered_nodup (scoreOf : ℕ → Option F32) : (numbered candidates scoreOf).Nodup := by
  refine List.Nodup.of_map (·.originalRank) ?_
  have hranks : (numbered candidates scoreOf).map (·.originalRank) =
      (List.range' 0 candidates.length).map (· + 1) := by
    rw [← List.zipIdx_map_snd, List.map_map, numbered, List.map_map]
    rfl
  rw [hranks]
  exact List.Nodup.map (add_left_injective 1) List.nodup_range'

theorem mem_scoredList {value : RerankedCandidate} :
    value ∈ scoredList candidates scores ↔ ∃ score ∈ scores,
      candidates[score.index]? = some value.candidate ∧ value.rerankScore = some score.score ∧
        value.originalRank = score.index + 1 := by
  rw [scoredList, List.mem_filterMap]
  refine exists_congr fun score => and_congr_right fun _ => ?_
  rw [Option.map_eq_some_iff]
  constructor
  · rintro ⟨candidate, hcandidate, rfl⟩
    exact ⟨hcandidate, rfl, rfl⟩
  · intro ⟨hcandidate, hscore, hrank⟩
    exact ⟨value.candidate, hcandidate, by rw [← hscore, ← hrank]⟩

theorem scoredList_ranks (hdistinct : (scores.map (·.index)).Nodup) :
    ((scoredList candidates scores).map (·.originalRank)).Nodup := by
  refine List.pairwise_map.mpr (List.pairwise_filterMap.mpr ?_)
  refine (List.pairwise_map.mp hdistinct).imp fun hne value hvalue other hother hsame => ?_
  obtain ⟨candidate, -, rfl⟩ := Option.map_eq_some_iff.mp hvalue
  obtain ⟨candidate', -, rfl⟩ := Option.map_eq_some_iff.mp hother
  exact hne (Nat.succ.inj hsame)

theorem scoreAt_of_mem (hdistinct : (scores.map (·.index)).Nodup) {score : RerankScore}
    (h : score ∈ scores) : scoreAt scores score.index = some score.score := by
  have hsome : (scores.find? fun other => other.index = score.index).isSome :=
    List.find?_isSome.mpr ⟨score, h, decide_eq_true rfl⟩
  obtain ⟨other, hother⟩ := Option.isSome_iff_exists.mp hsome
  have hindex := List.find?_some hother
  simp only [decide_eq_true_eq] at hindex
  have hsame := List.inj_on_of_nodup_map hdistinct (List.mem_of_find?_eq_some hother) h hindex
  rw [scoreAt, hother, Option.map_some, hsame]

/-- As many distinct indices as there are candidates are all of them. -/
theorem mem_indices (h : Complete candidates.length scores) {place : ℕ}
    (hplace : place < candidates.length) : ∃ score ∈ scores, score.index = place := by
  have hsubset : scores.map (·.index) ⊆ List.range candidates.length := by
    intro index hindex
    obtain ⟨score, hscore, rfl⟩ := List.mem_map.mp hindex
    exact List.mem_range.mpr (h.inRange score hscore)
  have hlength : (List.range candidates.length).length ≤ (scores.map (·.index)).length := by
    rw [List.length_range, List.length_map, h.length]
  have hperm := (List.subperm_of_subset h.distinct hsubset).perm_of_length_le hlength
  exact List.mem_map.mp (hperm.mem_iff.mpr (List.mem_range.mpr hplace))

theorem scoredList_perm (h : Complete candidates.length scores) :
    (scoredList candidates scores).Perm (numbered candidates (scoreAt scores)) := by
  refine (List.perm_ext_iff_of_nodup (scoredList_ranks h.distinct).of_map
    (numbered_nodup _)).mpr fun value => ?_
  rw [mem_scoredList, mem_numbered]
  constructor
  · intro ⟨score, hscore, hcandidate, hvalue, hrank⟩
    exact ⟨score.index, hcandidate, hvalue.trans (scoreAt_of_mem h.distinct hscore).symm, hrank⟩
  · intro ⟨place, hplace, hvalue, hrank⟩
    obtain ⟨score, hscore, rfl⟩ := mem_indices h (List.getElem?_eq_some_iff.mp hplace).1
    exact ⟨score, hscore, hplace, hvalue.trans (scoreAt_of_mem h.distinct hscore), hrank⟩

theorem mapM_scoredCandidate (h : ∀ score ∈ scores, score.index < candidates.length) :
    scores.mapM (scoredCandidate candidates) = .ok (scoredList candidates scores) := by
  induction scores with
  | nil => rfl
  | cons score rest ih =>
    obtain ⟨hscore, hrest⟩ := List.forall_mem_cons.mp h
    have hcandidate := List.getElem?_eq_getElem hscore
    have hhead : scoredCandidate candidates score =
        .ok ⟨candidates[score.index], some score.score, score.index + 1⟩ := by
      rw [scoredCandidate, hcandidate]
    have hlist : scoredList candidates (score :: rest) =
        ⟨candidates[score.index], some score.score, score.index + 1⟩ ::
          scoredList candidates rest :=
      List.filterMap_cons_some (by rw [hcandidate, Option.map_some])
    rw [List.mapM_cons, hhead, ih hrest, hlist]
    rfl

theorem rankCandidates_ok (service : RerankingService) (finalTopK : ℕ)
    (h : Complete candidates.length scores) :
    ∃ ranking : List RerankedCandidate,
      ranking.Perm (numbered candidates (scoreAt scores)) ∧ ranking.Pairwise Precedes ∧
        service.rankCandidates candidates finalTopK scores =
          .ok ⟨ranking.take finalTopK, ⟨service.reranker.name, candidates.length,
            (ranking.take finalTopK).length, true, none⟩⟩ := by
  have hfinite : ∀ value ∈ scoredList candidates scores, FinitelyScored value := by
    intro value hvalue
    obtain ⟨score, hscore, -, hrerank, -⟩ := mem_scoredList.mp hvalue
    exact ⟨score.score, hrerank, h.finite score hscore⟩
  refine ⟨_, (List.mergeSort_perm _ _).trans (scoredList_perm h),
    pairwise_precedes hfinite (scoredList_ranks h.distinct), ?_⟩
  rw [rankCandidates, validateScores_ok.mpr h, mapM_scoredCandidate h.inRange]
  rfl

theorem rankCandidates_error (service : RerankingService) (finalTopK : ℕ)
    (h : ¬ Complete candidates.length scores) :
    ∃ error, service.rankCandidates candidates finalTopK scores = .error (.provider error) := by
  cases hvalid : validateScores scores candidates.length with
  | ok valid => exact absurd (validateScores_ok.mp hvalid) h
  | error error =>
    obtain ⟨failure, rfl⟩ := validateScores_error hvalid
    exact ⟨failure, by rw [rankCandidates, hvalid]; rfl⟩

/-! ### Answers -/

/-- The provider is asked for scores. -/
structure Asked (query : String) (candidates : List RerankCandidate) (finalTopK : ℕ) : Prop where
  queryText : trim query ≠ ""
  positive : finalTopK ≠ 0
  nonempty : candidates ≠ []
  texts : ∀ candidate ∈ candidates, trim candidate.text ≠ ""

/-- What an answer keeps: the first of the ranking that the scores make, or of the original
order where there are no scores. -/
structure RerankedPrefix (candidates : List RerankCandidate)
    (outcome : Except RerankerError (List RerankScore)) (finalTopK : ℕ)
    (kept : List RerankedCandidate) : Prop where
  distinct : (kept.map (·.candidate.id)).Nodup
  length : kept.length = min finalTopK candidates.length
  ranked (scores : List RerankScore) : outcome = .ok scores →
    ∃ ranking : List RerankedCandidate, ranking.Perm (numbered candidates (scoreAt scores)) ∧
      ranking.Pairwise Precedes ∧ kept = ranking.take finalTopK
  fallback (error : RerankerError) : outcome = .error error →
    kept = (numbered candidates fun _ => none).take finalTopK

theorem rerank_asked (h : Asked query candidates finalTopK) :
    service.rerank query candidates finalTopK = match service.reranker.rerank query candidates with
      | .ok scores => service.rankCandidates candidates finalTopK scores
      | .error error => match service.failurePolicy with
        | .fail => .error (.provider error)
        | .preserveCandidateOrder =>
            .ok (service.preserveCandidateOrder candidates finalTopK error) := by
  have htexts : ¬ (candidates.any fun candidate => decide (trim candidate.text = "")) = true := by
    intro hany
    obtain ⟨candidate, hmem, hblank⟩ := List.any_eq_true.mp hany
    exact h.texts candidate hmem (of_decide_eq_true hblank)
  have hempty : ¬ candidates.isEmpty = true := fun hempty =>
    h.nonempty (List.isEmpty_iff.mp hempty)
  rw [rerank, if_neg h.queryText, if_neg h.positive, if_neg hempty, if_neg htexts]

theorem rerank_scored (h : Asked query candidates finalTopK)
    (houtcome : service.reranker.rerank query candidates = .ok scores) :
    service.rerank query candidates finalTopK = service.rankCandidates candidates finalTopK scores := by
  rw [rerank_asked h, houtcome]

theorem rerank_fail (h : Asked query candidates finalTopK) {error : RerankerError}
    (houtcome : service.reranker.rerank query candidates = .error error)
    (hpolicy : service.failurePolicy = .fail) :
    service.rerank query candidates finalTopK = .error (.provider error) := by
  rw [rerank_asked h, houtcome, hpolicy]

theorem rerank_preserve (h : Asked query candidates finalTopK) {error : RerankerError}
    (houtcome : service.reranker.rerank query candidates = .error error)
    (hpolicy : service.failurePolicy = .preserveCandidateOrder) :
    service.rerank query candidates finalTopK =
      .ok (service.preserveCandidateOrder candidates finalTopK error) := by
  rw [rerank_asked h, houtcome, hpolicy]

theorem rerank_not_asked (service : RerankingService) (h : ¬ Asked query candidates finalTopK) :
    candidates = [] ∧ service.rerank query candidates finalTopK =
        .ok ⟨[], ⟨service.reranker.name, 0, 0, false, none⟩⟩ ∨
      ∃ message, service.rerank query candidates finalTopK = .error (.invalidRequest message) := by
  unfold rerank
  split
  · exact .inr ⟨_, rfl⟩
  · rename_i hquery
    split
    · exact .inr ⟨_, rfl⟩
    · rename_i hfinal
      split
      · rename_i hempty
        exact .inl ⟨List.isEmpty_iff.mp hempty, rfl⟩
      · rename_i hempty
        split
        · exact .inr ⟨_, rfl⟩
        · rename_i htexts
          refine absurd ⟨hquery, hfinal, fun hnil => hempty (List.isEmpty_iff.mpr hnil), ?_⟩ h
          intro candidate hcandidate hblank
          exact htexts (List.any_eq_true.mpr ⟨candidate, hcandidate, decide_eq_true hblank⟩)

theorem zipIdx_take {α : Type} (list : List α) (count : ℕ) :
    (list.take count).zipIdx = list.zipIdx.take count := by
  refine List.ext_getElem? fun index => ?_
  rw [List.getElem?_zipIdx, List.getElem?_take, List.getElem?_take, List.getElem?_zipIdx]
  split <;> rfl

theorem preserveCandidateOrder_candidates (error : RerankerError) :
    (service.preserveCandidateOrder candidates finalTopK error).candidates =
      (numbered candidates fun _ => none).take finalTopK := by
  rw [preserveCandidateOrder, zipIdx_take, List.map_take]
  rfl

/-- Distinct ids stay distinct in a prefix of any ranking. -/
theorem take_distinct (hids : (candidates.map (·.id)).Nodup) {scoreOf : ℕ → Option F32}
    {ranking : List RerankedCandidate} (hperm : ranking.Perm (numbered candidates scoreOf)) :
    ((ranking.take finalTopK).map (·.candidate.id)).Nodup := by
  have hall : (ranking.map (·.candidate.id)).Nodup := by
    refine (hperm.map _).nodup_iff.mpr ?_
    rw [← map_candidate_numbered candidates scoreOf, List.map_map] at hids
    exact hids
  exact hall.sublist ((List.take_sublist _ _).map _)

theorem take_length {scoreOf : ℕ → Option F32} {ranking : List RerankedCandidate}
    (hperm : ranking.Perm (numbered candidates scoreOf)) :
    (ranking.take finalTopK).length = min finalTopK candidates.length := by
  rw [List.length_take, hperm.length_eq, length_numbered]

/-- Every answer is a prefix of the right ranking. -/
theorem rerank_prefix (hids : (candidates.map (·.id)).Nodup) {result : RerankResult}
    (h : service.rerank query candidates finalTopK = .ok result) :
    RerankedPrefix candidates (service.reranker.rerank query candidates) finalTopK
      result.candidates := by
  by_cases hasked : Asked query candidates finalTopK
  · cases houtcome : service.reranker.rerank query candidates with
    | ok scores =>
      rw [rerank_scored hasked houtcome] at h
      by_cases hcomplete : Complete candidates.length scores
      · obtain ⟨ranking, hperm, hsorted, hrank⟩ := rankCandidates_ok service finalTopK hcomplete
        rw [hrank] at h
        cases h
        refine ⟨take_distinct hids hperm, take_length hperm, fun answered hanswered => ?_, nofun⟩
        cases hanswered
        exact ⟨ranking, hperm, hsorted, rfl⟩
      · obtain ⟨error, herror⟩ := rankCandidates_error service finalTopK hcomplete
        rw [herror] at h
        cases h
    | error error =>
      cases hpolicy : service.failurePolicy with
      | fail =>
        rw [rerank_fail hasked houtcome hpolicy] at h
        cases h
      | preserveCandidateOrder =>
        rw [rerank_preserve hasked houtcome hpolicy] at h
        cases h
        rw [preserveCandidateOrder_candidates]
        exact ⟨take_distinct hids (.refl _), take_length (.refl _), nofun, fun _ _ => rfl⟩
  · obtain ⟨rfl, hrerank⟩ | ⟨message, hrerank⟩ := rerank_not_asked service hasked
    · rw [hrerank] at h
      cases h
      exact ⟨List.nodup_nil, (Nat.min_zero _).symm, fun scores _ => ⟨[], .refl _, .nil, List.take_nil.symm⟩,
        fun _ _ => List.take_nil.symm⟩
    · rw [hrerank] at h
      cases h

/-- What is kept stands where its rank says. -/
theorem RerankedPrefix.original {outcome : Except RerankerError (List RerankScore)}
    {kept : List RerankedCandidate} (h : RerankedPrefix candidates outcome finalTopK kept)
    {value : RerankedCandidate} (hvalue : value ∈ kept) :
    0 < value.originalRank ∧ candidates[value.originalRank - 1]? = some value.candidate := by
  have hnumbered : ∃ scoreOf, value ∈ numbered candidates scoreOf := by
    cases houtcome : outcome with
    | ok scores =>
      obtain ⟨ranking, hperm, -, rfl⟩ := h.ranked scores houtcome
      exact ⟨_, hperm.mem_iff.mp (List.mem_of_mem_take hvalue)⟩
    | error error =>
      rw [h.fallback error houtcome] at hvalue
      exact ⟨_, List.mem_of_mem_take hvalue⟩
  obtain ⟨scoreOf, hmem⟩ := hnumbered
  obtain ⟨place, hplace, -, hrank⟩ := mem_numbered.mp hmem
  rw [hrank]
  exact ⟨place.succ_pos, hplace⟩

variable (service query candidates finalTopK)

/-- Where the policy is to preserve the order, the provider answers an error, or a finite
score for each candidate. -/
def Covered : Prop :=
  service.failurePolicy = .preserveCandidateOrder → Asked query candidates finalTopK →
    ∀ scores, service.reranker.rerank query candidates = .ok scores →
      Complete candidates.length scores

/-- No answer of the provider makes the reranking fail. -/
def Preserved : Prop :=
  service.failurePolicy = .preserveCandidateOrder →
    ∀ error, service.rerank query candidates finalTopK ≠ .error (.provider error)

variable {service query candidates finalTopK}

theorem preserved_iff :
    service.Preserved query candidates finalTopK ↔ service.Covered query candidates finalTopK := by
  constructor
  · intro h hpolicy hasked scores houtcome
    by_contra hcomplete
    obtain ⟨error, herror⟩ := rankCandidates_error service finalTopK hcomplete
    exact h hpolicy error ((rerank_scored hasked houtcome).trans herror)
  · intro h hpolicy error herror
    by_cases hasked : Asked query candidates finalTopK
    · cases houtcome : service.reranker.rerank query candidates with
      | ok scores =>
        obtain ⟨ranking, -, -, hrank⟩ := rankCandidates_ok service finalTopK
          (h hpolicy hasked scores houtcome)
        rw [rerank_scored hasked houtcome, hrank] at herror
        cases herror
      | error failure =>
        rw [rerank_preserve hasked houtcome hpolicy] at herror
        cases herror
    · obtain ⟨-, hrerank⟩ | ⟨message, hrerank⟩ := rerank_not_asked service hasked
      · rw [hrerank] at herror
        cases herror
      · rw [hrerank] at herror
        cases herror

end RerankingService

/-! ### Projection -/

structure CandidateProjection where
  textFields : List FieldPath
  includeMetadata : Bool

/-- The text of a scalar; how a number is written is left open. -/
def metadataValueText (numberText : F64 → String) : MetadataValue → Option String
  | .string value => some value
  | .bool value => some (toString value)
  | .number value => some (numberText value)
  | _ => none

def CandidateProjection.parts (projection : CandidateProjection) (numberText : F64 → String)
    (metadata : Metadata) : List String :=
  projection.textFields.filterMap fun field =>
    ((field.resolve metadata).bind (metadataValueText numberText)).filter fun text => trim text ≠ ""

def CandidateProjection.project (projection : CandidateProjection) (numberText : F64 → String)
    (id : RecordId) (metadata : Metadata) (retrievalScore : F32) :
    Except RerankingError RerankCandidate :=
  if projection.textFields = [] then
    .error (.invalidConfig "candidate projection requires at least one text field")
  else if projection.parts numberText metadata = [] then
    .error (.invalidRequest "candidate projection produced empty text")
  else
    .ok ⟨id, "\n".intercalate (projection.parts numberText metadata),
      if projection.includeMetadata then metadata else .empty, retrievalScore⟩

theorem CandidateProjection.project_id {projection : CandidateProjection}
    {numberText : F64 → String} {id : RecordId} {metadata : Metadata} {score : F32}
    {candidate : RerankCandidate}
    (h : projection.project numberText id metadata score = .ok candidate) : candidate.id = id := by
  unfold project at h
  split at h
  · cases h
  · split at h
    · cases h
    · cases h
      rfl

end Ketebe
