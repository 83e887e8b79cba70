import Ketebe.Lib.BoundedSort
import Ketebe.Lib.Groups
import Ketebe.Lib.KeyedTable
import Ketebe.Lib.PrefixCode
import Ketebe.RestMetadata
import Mathlib.Algebra.Field.Basic
import Mathlib.Algebra.BigOperators.Group.List.Basic

/-!
Searches over several collections whose answers are fused into one list. The hits of one
record add up what each is worth, and one of them stands for all.
-/
namespace Ketebe.Mcp

open Lib.BoundedSort Lib.Groups Lib.KeyedTable Lib.PrefixCode

/-! ### Results of the collections -/

inductive AgentRecordId where
  | string (value : String)
  | u64 (value : UInt64)
  deriving DecidableEq, Repr

def recordKey : AgentRecordId → String
  | .string value => "string:" ++ value
  | .u64 value => "u64:" ++ Nat.repr value.toNat

inductive SearchMode where
  | dense
  | sparse
  | hybrid
  deriving DecidableEq, Repr

inductive McpErrorCategory where
  | authentication
  | authorization
  | validation
  | notFound
  | conflict
  | rateLimit
  | unavailable
  | internal
  deriving DecidableEq, Repr

structure McpError where
  code : String
  category : McpErrorCategory
  retryable : Bool
  deriving DecidableEq, Repr

structure SearchHit where
  id : AgentRecordId
  score : F32
  sequenceNumber : UInt64
  sourceTimestampUnixMs : Option UInt64
  metadata : Option JsonValue
  denseRank : Option ℕ
  sparseRank : Option ℕ
  denseScore : Option F32
  sparseScore : Option F32
  rerankScore : Option F32
  originalRank : Option ℕ

inductive CollectionSearchStatus where
  | ok
  | error
  deriving DecidableEq, Repr

structure CollectionSearchResult where
  collection : String
  status : CollectionSearchStatus
  mode : Option SearchMode
  hits : List SearchHit
  explain : Option JsonValue
  error : Option McpError

/-! ### Fusion -/

inductive FusionStrategy where
  | rrf
  | scoreSum
  deriving DecidableEq, Repr

inductive DedupStrategy where
  | none
  | recordId
  deriving DecidableEq, Repr

/-- The parameters that fusion reads. -/
structure FusedSearchParams where
  preferRecent : Bool
  finalLimit : ℕ
  fusion : FusionStrategy
  rrfK : UInt32
  dedup : DedupStrategy
  deriving DecidableEq, Repr

/-- What scores are computed with. -/
structure FusionArith (S : Type) where
  /-- `1.0 / f64::from(n)` -/
  reciprocal : UInt32 → S
  ofF32 : F32 → S
  add : S → S → S
  partialCmp : S → S → Option Ordering

structure FusionContribution (S : Type) where
  sourceCollection : String
  sourceRank : ℕ
  retrievalScore : F32
  rerankScore : Option F32
  originalRank : Option ℕ
  fusionContribution : S

structure FusedSearchHit (S : Type) where
  fusionRank : ℕ
  fusionScore : S
  id : AgentRecordId
  representative : SearchHit
  provenance : List (FusionContribution S)

structure FusedSearchOutput (S : Type) where
  fusion : FusionStrategy
  dedup : DedupStrategy
  results : List CollectionSearchResult
  hits : List (FusedSearchHit S)

structure Accumulator (S : Type) where
  id : AgentRecordId
  representative : SearchHit
  representativeOrder : ℕ × ℕ
  score : S
  provenance : List (FusionContribution S)

/-- A hit with its place among the results. -/
structure Occurrence where
  collectionOrder : ℕ
  collection : String
  sourceRank : ℕ
  hit : SearchHit

def Occurrence.order (occurrence : Occurrence) : ℕ × ℕ :=
  (occurrence.collectionOrder, occurrence.sourceRank)

/-- The comparison of pairs. -/
def compareOrder : ℕ × ℕ → ℕ × ℕ → Ordering :=
  compareLex (compareOn Prod.fst) (compareOn Prod.snd)

def saturatingAdd (left right : UInt32) : UInt32 :=
  if left.toNat + right.toNat < 2 ^ 32 then left + right else UInt32.ofNat (2 ^ 32 - 1)

section Fuse

variable {S : Type} (arith : FusionArith S) (params : FusedSearchParams)

def fusionKey (dedup : DedupStrategy) (occurrence : Occurrence) : String :=
  match dedup with
  | .recordId => recordKey occurrence.hit.id
  | .none => Nat.repr occurrence.collectionOrder ++ ":" ++ recordKey occurrence.hit.id

/-- The rank counts as a 32-bit number. -/
def contribution (occurrence : Occurrence) : S :=
  match params.fusion with
  | .rrf => arith.reciprocal (saturatingAdd params.rrfK (UInt32.ofNat occurrence.sourceRank))
  | .scoreSum => arith.ofF32 (occurrence.hit.rerankScore.getD occurrence.hit.score)

def provenanceOf (occurrence : Occurrence) : FusionContribution S where
  sourceCollection := occurrence.collection
  sourceRank := occurrence.sourceRank
  retrievalScore := occurrence.hit.score
  rerankScore := occurrence.hit.rerankScore
  originalRank := occurrence.hit.originalRank
  fusionContribution := contribution arith params occurrence

/-- The occurrence takes the place of the representative. -/
def replaces (occurrence : Occurrence) (representative : SearchHit) (order : ℕ × ℕ) : Bool :=
  (params.preferRecent && (compare occurrence.hit.sourceTimestampUnixMs
      representative.sourceTimestampUnixMs).isGT) ||
    (!params.preferRecent && (compareOrder occurrence.order order).isLT)

def accumulate (occurrence : Occurrence) : Option (Accumulator S) → Accumulator S
  | some current =>
      let current := { current with
        score := arith.add current.score (contribution arith params occurrence)
        provenance := current.provenance ++ [provenanceOf arith params occurrence] }
      if replaces params occurrence current.representative current.representativeOrder then
        { current with representative := occurrence.hit, representativeOrder := occurrence.order }
      else current
  | none => {
      id := occurrence.hit.id
      representative := occurrence.hit
      representativeOrder := occurrence.order
      score := contribution arith params occurrence
      provenance := [provenanceOf arith params occurrence] }

def compareFused (left right : Accumulator S) : Ordering :=
  ((arith.partialCmp right.score left.score).getD .eq).then <|
    (if params.preferRecent then compare right.representative.sourceTimestampUnixMs
      left.representative.sourceTimestampUnixMs else .eq).then <|
    (compareOrder left.representativeOrder right.representativeOrder).then <|
    compare (recordKey left.id) (recordKey right.id)

def accumulators (results : List CollectionSearchResult) :
    Std.ExtTreeMap String (Accumulator S) compare :=
  results.zipIdx.foldl (fun accumulators (result, collectionOrder) =>
    if result.status ≠ .ok then accumulators
    else result.hits.zipIdx.foldl (fun accumulators (hit, index) =>
      let occurrence : Occurrence := ⟨collectionOrder, result.collection, index + 1, hit⟩
      let key := fusionKey params.dedup occurrence
      accumulators.insert key (accumulate arith params occurrence accumulators[key]?))
        accumulators) ∅

def rankedHit (entry : Accumulator S × ℕ) : FusedSearchHit S where
  fusionRank := entry.2 + 1
  fusionScore := entry.1.score
  id := entry.1.id
  representative := entry.1.representative
  provenance := entry.1.provenance

def fuseResults (results : List CollectionSearchResult) : FusedSearchOutput S :=
  let fused := (values (accumulators arith params results)).mergeSort fun left right =>
    (compareFused arith params left right).isLE
  { fusion := params.fusion
    dedup := params.dedup
    results
    hits := ((fused.take params.finalLimit).zipIdx).map rankedHit }

end Fuse

/-! ### Keys -/

theorem recordKey_injective : Function.Injective recordKey := by
  intro first second h
  have hlist := congrArg String.toList h
  cases first with
  | string value =>
    cases second with
    | string other =>
      simp only [recordKey, String.toList_append] at hlist
      rw [String.toList_inj.mp (List.append_cancel_left hlist)]
    | u64 other =>
      simp only [recordKey, String.toList_append] at hlist
      cases hlist
  | u64 value =>
    cases second with
    | string other =>
      simp only [recordKey, String.toList_append] at hlist
      cases hlist
    | u64 other =>
      simp only [recordKey, String.toList_append] at hlist
      have hrepr := String.toList_inj.mp (List.append_cancel_left hlist)
      rw [UInt64.toNat_inj.mp (Nat.repr_injective hrepr)]

/-- What an occurrence is told apart by. -/
def identity (dedup : DedupStrategy) (occurrence : Occurrence) : Option ℕ × AgentRecordId :=
  match dedup with
  | .recordId => (none, occurrence.hit.id)
  | .none => (some occurrence.collectionOrder, occurrence.hit.id)

/-- Keys collide only for one record, and without duplicates removed only in one collection. -/
theorem fusionKey_inj {dedup : DedupStrategy} {first second : Occurrence} :
    fusionKey dedup first = fusionKey dedup second ↔
      identity dedup first = identity dedup second := by
  cases dedup with
  | recordId =>
    rw [fusionKey, fusionKey, recordKey_injective.eq_iff, identity, identity, Prod.mk.injEq,
      and_iff_right rfl]
  | none =>
    rw [identity, identity, Prod.mk.injEq, Option.some.injEq]
    constructor
    · intro h
      have hlist := congrArg String.toList h
      simp only [fusionKey, String.toList_append, String.reduceToList, List.append_assoc,
        List.cons_append, List.nil_append] at hlist
      obtain ⟨horder, hkey⟩ :=
        append_cons_inj (colon_notMem_repr _) (colon_notMem_repr _) hlist
      exact ⟨Nat.repr_injective (String.toList_inj.mp horder),
        recordKey_injective (String.toList_inj.mp hkey)⟩
    · rintro ⟨horder, hid⟩
      rw [fusionKey, fusionKey, horder, hid]

/-! ### Occurrences -/

/-- The hits of the collections that answered, in order. -/
def occurrences (results : List CollectionSearchResult) : List Occurrence :=
  results.zipIdx.flatMap fun (result, collectionOrder) =>
    if result.status ≠ .ok then []
    else result.hits.zipIdx.map fun (hit, index) =>
      ⟨collectionOrder, result.collection, index + 1, hit⟩

theorem mem_occurrences {results : List CollectionSearchResult} {occurrence : Occurrence} :
    occurrence ∈ occurrences results ↔ ∃ result index,
      results[occurrence.collectionOrder]? = some result ∧ result.status = .ok ∧
        result.hits[index]? = some occurrence.hit ∧
        occurrence.collection = result.collection ∧ occurrence.sourceRank = index + 1 := by
  rw [occurrences, List.mem_flatMap]
  constructor
  · rintro ⟨⟨result, order⟩, hresult, hmem⟩
    dsimp only at hmem
    split at hmem
    · cases hmem
    · rename_i hstatus
      obtain ⟨⟨hit, index⟩, hhit, rfl⟩ := List.mem_map.mp hmem
      exact ⟨result, index, List.mem_zipIdx_iff_getElem?.mp hresult, not_not.mp hstatus,
        List.mem_zipIdx_iff_getElem?.mp hhit, rfl, rfl⟩
  · intro ⟨result, index, hresult, hstatus, hhit, hcollection, hrank⟩
    refine ⟨(result, occurrence.collectionOrder), List.mem_zipIdx_iff_getElem?.mpr hresult, ?_⟩
    dsimp only
    rw [if_neg (not_not.mpr hstatus)]
    refine List.mem_map.mpr ⟨(occurrence.hit, index), List.mem_zipIdx_iff_getElem?.mpr hhit, ?_⟩
    cases occurrence
    cases hcollection
    cases hrank
    rfl

theorem eq_of_order {results : List CollectionSearchResult} {first second : Occurrence}
    (hfirst : first ∈ occurrences results) (hsecond : second ∈ occurrences results)
    (h : first.order = second.order) : first = second := by
  obtain ⟨result, index, hresult, -, hhit, hcollection, hrank⟩ := mem_occurrences.mp hfirst
  obtain ⟨other, place, hother, -, hplace, hcollection', hrank'⟩ := mem_occurrences.mp hsecond
  obtain ⟨horder, hranks⟩ := Prod.mk.injEq .. ▸ h
  obtain ⟨order, collection, rank, hit⟩ := first
  obtain ⟨order', collection', rank', hit'⟩ := second
  simp only at *
  subst horder hranks hcollection hcollection'
  obtain rfl := Option.some.inj (hresult.symm.trans hother)
  obtain rfl : index = place := by omega
  obtain rfl := Option.some.inj (hhit.symm.trans hplace)
  rfl

theorem zipIdx_pairwise {α : Type} (items : List α) :
    items.zipIdx.Pairwise fun first second => first.2 < second.2 := by
  have hindices := List.pairwise_lt_range' (s := 0) (n := items.length)
  rwa [← List.zipIdx_map_snd, List.pairwise_map] at hindices

/-- Occurrences come in the order of their places. -/
theorem occurrences_pairwise (results : List CollectionSearchResult) :
    (occurrences results).Pairwise fun first second =>
      compareOrder first.order second.order = .lt := by
  rw [occurrences, List.pairwise_flatMap]
  constructor
  · rintro ⟨result, order⟩ -
    dsimp only
    split
    · exact List.Pairwise.nil
    · refine List.pairwise_map.mpr ((zipIdx_pairwise result.hits).imp fun {first second} h => ?_)
      have hrank : first.2 + 1 < second.2 + 1 := Nat.succ_lt_succ h
      simp only [compareOrder, compareLex, compareOn, Occurrence.order, compare_eq_iff_eq.mpr,
        Ordering.then_eq_lt, compare_lt_iff_lt.mpr hrank, and_true, or_true]
  · refine (zipIdx_pairwise results).imp fun {first second} h left hleft right hright => ?_
    have horders (place : CollectionSearchResult × ℕ) {occurrence : Occurrence}
        (hmem : occurrence ∈ if place.1.status ≠ .ok then [] else
          place.1.hits.zipIdx.map fun (hit, index) =>
            (⟨place.2, place.1.collection, index + 1, hit⟩ : Occurrence)) :
        occurrence.collectionOrder = place.2 := by
      split at hmem
      · cases hmem
      · obtain ⟨hit, -, rfl⟩ := List.mem_map.mp hmem
        rfl
    have hleft := horders first hleft
    have hright := horders second hright
    have hlt : left.collectionOrder < right.collectionOrder := by omega
    simp only [compareOrder, compareLex, compareOn, Occurrence.order,
      compare_lt_iff_lt.mpr hlt, Ordering.lt_then]

theorem accumulators_eq {S : Type} (arith : FusionArith S) (params : FusedSearchParams)
    (results : List CollectionSearchResult) : accumulators arith params results =
      gather (fusionKey params.dedup) (accumulate arith params) ∅ (occurrences results) := by
  rw [gather, occurrences, List.foldl_flatMap, accumulators]
  congr 1
  funext table entry
  obtain ⟨result, order⟩ := entry
  dsimp only
  split
  · rfl
  · rw [List.foldl_map]

/-! ### What is accumulated -/

/-- Exact sums, where a finite float counts for the value it has there. -/
def exactArith {K : Type} [Field K] [LinearOrder K] (value : F32 → K) : FusionArith K where
  reciprocal n := 1 / (n.toNat : K)
  ofF32 := value
  add := (· + ·)
  partialCmp left right := some (compare left right)

/-- The greater one stands for the record: the more recent one, or else the one before. -/
def compareRepresentative (preferRecent : Bool) (left right : Occurrence) : Ordering :=
  if preferRecent then
    compare left.hit.sourceTimestampUnixMs right.hit.sourceTimestampUnixMs
  else compareOrder right.order left.order

instance : Std.TransCmp compareOrder :=
  inferInstanceAs (Std.TransCmp (compareLex (compareOn Prod.fst) (compareOn Prod.snd)))

instance (preferRecent : Bool) : Std.TransCmp (compareRepresentative preferRecent) := by
  cases preferRecent with
  | true =>
    exact inferInstanceAs (Std.TransCmp (compareOn fun occurrence : Occurrence =>
      occurrence.hit.sourceTimestampUnixMs))
  | false =>
    exact {
      eq_swap := fun {left right} =>
        @Std.OrientedCmp.eq_swap _ compareOrder _ right.order left.order
      isLE_trans := fun hfirst hsecond =>
        @Std.TransCmp.isLE_trans _ compareOrder _ _ _ _ hsecond hfirst }

section Exact

variable {K : Type} [Field K] [LinearOrder K] (value : F32 → K) (params : FusedSearchParams)

/-- What the occurrences of a record add up to. -/
structure Accumulates (seen : List Occurrence) (entry : Accumulator K) : Prop where
  id : seen.head?.map (·.hit.id) = some entry.id
  representative : ∃ best, FirstBest (compareRepresentative params.preferRecent) seen best ∧
    entry.representative = best.hit ∧ entry.representativeOrder = best.order
  score : entry.score = (seen.map (contribution (exactArith value) params)).sum
  provenance : entry.provenance = seen.map (provenanceOf (exactArith value) params)

variable {value params} {seen : List Occurrence} {entry : Accumulator K}

theorem replaces_eq (occurrence best : Occurrence) :
    replaces params occurrence best.hit best.order =
      (compareRepresentative params.preferRecent occurrence best).isGT := by
  rw [replaces, compareRepresentative]
  cases params.preferRecent with
  | true => simp only [Bool.true_and, Bool.not_true, Bool.false_and, Bool.or_false, if_true]
  | false =>
    rw [if_neg Bool.false_ne_true, @Std.OrientedCmp.eq_swap _ compareOrder _ best.order]
    cases compareOrder occurrence.order best.order <;> rfl

theorem accumulates_first (occurrence : Occurrence) : Accumulates value params [occurrence]
    (accumulate (exactArith value) params occurrence none) where
  id := rfl
  representative := ⟨occurrence, firstBest_singleton occurrence, rfl, rfl⟩
  score := by rw [List.map_cons, List.map_nil, List.sum_singleton]; rfl
  provenance := rfl

theorem Accumulates.concat (h : Accumulates value params seen entry) (occurrence : Occurrence) :
    Accumulates value params (seen ++ [occurrence])
      (accumulate (exactArith value) params occurrence (some entry)) := by
  obtain ⟨best, hbest, hhit, horder⟩ := h.representative
  have hnext := hbest.concat occurrence
  have hsum : (exactArith value).add entry.score (contribution (exactArith value) params occurrence) =
      ((seen ++ [occurrence]).map (contribution (exactArith value) params)).sum := by
    rw [List.map_append, List.sum_append, List.map_singleton, List.sum_singleton, ← h.score]
    rfl
  have hprovenance : entry.provenance ++ [provenanceOf (exactArith value) params occurrence] =
      (seen ++ [occurrence]).map (provenanceOf (exactArith value) params) := by
    rw [List.map_append, List.map_singleton, ← h.provenance]
  have hid : (seen ++ [occurrence]).head?.map (·.hit.id) = some entry.id := by
    rw [← h.id, List.head?_append_of_ne_nil]
    rintro rfl
    cases h.id
  have hreplaces : replaces params occurrence entry.representative entry.representativeOrder =
      (compareRepresentative params.preferRecent occurrence best).isGT := by
    rw [hhit, horder, replaces_eq]
  rw [accumulate]
  by_cases hbetter : compareRepresentative params.preferRecent occurrence best = .gt
  · rw [if_pos hbetter] at hnext
    simp only [hreplaces, hbetter, Ordering.isGT, if_true]
    exact ⟨hid, ⟨occurrence, hnext, rfl, rfl⟩, hsum, hprovenance⟩
  · rw [if_neg hbetter] at hnext
    have hkept : (compareRepresentative params.preferRecent occurrence best).isGT = false := by
      cases hcompare : compareRepresentative params.preferRecent occurrence best <;>
        first | rfl | exact absurd hcompare hbetter
    simp only [hreplaces, hkept, Bool.false_eq_true, if_false]
    exact ⟨hid, ⟨best, hnext, hhit, horder⟩, hsum, hprovenance⟩

/-- By induction on the occurrences, from the last one. -/
theorem accumulates_of_putAll
    (h : putAll (accumulate (exactArith value) params) none seen = some entry) :
    Accumulates value params seen entry := by
  induction seen using List.reverseRecOn generalizing entry with
  | nil => cases h
  | append_singleton seen occurrence ih =>
    rw [putAll_concat] at h
    cases hfound : putAll (accumulate (exactArith value) params) none seen with
    | none =>
      have hnil : seen = [] := by
        by_contra hne
        have hsome : (putAll (accumulate (exactArith value) params) none seen).isSome :=
          putAll_isSome _ (.inr hne)
        rw [hfound] at hsome
        cases hsome
      rw [hfound] at h
      cases h
      rw [hnil]
      exact accumulates_first occurrence
    | some found =>
      rw [hfound] at h
      cases h
      exact (ih hfound).concat occurrence

/-! ### The ranking -/

/-- What the accumulated hits of one record are told apart by. -/
def Accumulator.identity {S : Type} (dedup : DedupStrategy) (entry : Accumulator S) :
    Option ℕ × AgentRecordId :=
  match dedup with
  | .recordId => (none, entry.id)
  | .none => (some entry.representativeOrder.1, entry.id)

/-- One record stands before another. No two have a representative at one place, so their
keys decide nothing. -/
def Precedes (preferRecent : Bool) (left right : Accumulator K) : Prop :=
  right.score < left.score ∨ left.score = right.score ∧
    (preferRecent ∧ compare left.representative.sourceTimestampUnixMs
        right.representative.sourceTimestampUnixMs = .gt ∨
      (preferRecent → left.representative.sourceTimestampUnixMs =
        right.representative.sourceTimestampUnixMs) ∧
      compareOrder left.representativeOrder right.representativeOrder = .lt)

/-- The fused records of the results, best first. -/
structure ExactFusion (value : F32 → K) (params : FusedSearchParams)
    (results : List CollectionSearchResult) (ranking : List (Accumulator K)) : Prop where
  distinct : (ranking.map (Accumulator.identity params.dedup)).Nodup
  members (key : Option ℕ × AgentRecordId) :
    key ∈ ranking.map (Accumulator.identity params.dedup) ↔
      key ∈ (occurrences results).map (identity params.dedup)
  accumulates (entry : Accumulator K) : entry ∈ ranking → Accumulates value params
    ((occurrences results).filter fun occurrence =>
      identity params.dedup occurrence = entry.identity params.dedup) entry
  sorted : ranking.Pairwise (Precedes params.preferRecent)

/-- What comes after the scores. -/
def compareTies (params : FusedSearchParams) : Accumulator K → Accumulator K → Ordering :=
  compareLex (fun left right => if params.preferRecent then
      compare right.representative.sourceTimestampUnixMs left.representative.sourceTimestampUnixMs
    else .eq)
    (compareLex (compareLex (compareOn (·.representativeOrder.1))
      (compareOn (·.representativeOrder.2))) (compareOn fun entry => recordKey entry.id))

instance : Std.TransCmp (compareTies params : Accumulator K → Accumulator K → Ordering) := by
  have hrecent : Std.TransCmp fun left right : Accumulator K => if params.preferRecent then
      compare right.representative.sourceTimestampUnixMs left.representative.sourceTimestampUnixMs
    else .eq := by
    cases params.preferRecent with
    | true =>
      exact inferInstanceAs (Std.TransCmp fun left right : Accumulator K => compareOn
        (fun entry : Accumulator K => entry.representative.sourceTimestampUnixMs) right left)
    | false => exact { eq_swap := rfl, isLE_trans := fun _ _ => rfl }
  exact inferInstanceAs (Std.TransCmp (compareLex _ _))

instance : Std.TransCmp (compareFused (exactArith value) params) :=
  inferInstanceAs (Std.TransCmp (compareLex
    (fun left right : Accumulator K => compareOn Accumulator.score right left)
    (compareTies params)))

theorem lt_of_then_isLE {first second : Ordering} (h : (first.then second).isLE)
    (hne : first ≠ .eq) : first = .lt := by
  cases first with
  | lt => rfl
  | eq => exact absurd rfl hne
  | gt => cases h

/-- Of two records with different places, the one that sorts first precedes the other. -/
theorem precedes_of_isLE {left right : Accumulator K}
    (hne : left.representativeOrder ≠ right.representativeOrder)
    (h : (compareFused (exactArith value) params left right).isLE) :
    Precedes params.preferRecent left right := by
  have horder : compareOrder left.representativeOrder right.representativeOrder ≠ .eq := by
    intro heq
    simp only [compareOrder, compareLex, compareOn, Ordering.then_eq_eq,
      compare_eq_iff_eq] at heq
    exact hne (Prod.ext heq.1 heq.2)
  unfold Precedes
  change ((compare right.score left.score).then
    (Ordering.then (if params.preferRecent then _ else .eq) (Ordering.then _ _))).isLE at h
  rcases hscore : compare right.score left.score with _ | _ | _
  · exact .inl (compare_lt_iff_lt.mp hscore)
  · refine .inr ⟨(compare_eq_iff_eq.mp hscore).symm, ?_⟩
    rw [hscore] at h
    cases hrecent : params.preferRecent with
    | false =>
      rw [hrecent] at h
      exact .inr ⟨nofun, lt_of_then_isLE h horder⟩
    | true =>
      rw [hrecent] at h
      rcases htime : compare right.representative.sourceTimestampUnixMs
        left.representative.sourceTimestampUnixMs with _ | _ | _
      · exact .inl ⟨rfl, Std.OrientedCmp.gt_of_lt htime⟩
      · simp only [if_true, htime] at h
        exact .inr ⟨fun _ => (Std.LawfulEqCmp.eq_of_compare htime).symm, lt_of_then_isLE h horder⟩
      · simp only [if_true, htime] at h
        cases h
  · rw [hscore] at h
    cases h

section Ranking

variable {results : List CollectionSearchResult} {key : String}

/-- What stands under a key are the occurrences with that key, added up. -/
theorem accumulates_of_getElem?
    (h : (accumulators (exactArith value) params results)[key]? = some entry) :
    Accumulates value params
      ((occurrences results).filter fun occurrence => fusionKey params.dedup occurrence = key)
      entry := by
  rw [accumulators_eq, getElem?_gather, Std.ExtTreeMap.getElem?_empty] at h
  exact accumulates_of_putAll h

/-- The occurrences of an entry share what it is told apart by. -/
theorem identity_of_getElem?
    (h : (accumulators (exactArith value) params results)[key]? = some entry)
    {occurrence : Occurrence} (hkey : fusionKey params.dedup occurrence = key) :
    identity params.dedup occurrence = entry.identity params.dedup := by
  have haccumulates := accumulates_of_getElem? h
  obtain ⟨best, hbest, -, horder⟩ := haccumulates.representative
  have hbestKey := of_decide_eq_true (List.mem_filter.mp hbest.mem).2
  obtain ⟨first, hfirst, hid⟩ := Option.map_eq_some_iff.mp haccumulates.id
  have hfirstKey := of_decide_eq_true (List.mem_filter.mp (List.mem_of_head? hfirst)).2
  have hsameBest := fusionKey_inj.mp (hkey.trans hbestKey.symm)
  have hsameFirst := fusionKey_inj.mp (hkey.trans hfirstKey.symm)
  revert hsameBest hsameFirst
  unfold identity Accumulator.identity
  cases params.dedup with
  | recordId =>
    intro hsameBest hsameFirst
    rw [← hid]
    exact hsameFirst
  | none =>
    intro hsameBest hsameFirst
    rw [horder, ← hid]
    exact Prod.ext (Prod.mk.inj hsameBest).1 (Prod.mk.inj hsameFirst).2

theorem exists_entry_iff (key : String) :
    (∃ entry, (accumulators (exactArith value) params results)[key]? = some entry) ↔
      ∃ occurrence ∈ occurrences results, fusionKey params.dedup occurrence = key := by
  rw [accumulators_eq, ← Option.isSome_iff_exists, getElem?_gather, Std.ExtTreeMap.getElem?_empty]
  constructor
  · intro h
    obtain ⟨entry, hentry⟩ := Option.isSome_iff_exists.mp h
    obtain ⟨first, hfirst, -⟩ := Option.map_eq_some_iff.mp (accumulates_of_putAll hentry).id
    obtain ⟨hmem, hkey⟩ := List.mem_filter.mp (List.mem_of_head? hfirst)
    exact ⟨first, hmem, of_decide_eq_true hkey⟩
  · intro ⟨occurrence, hmem, hkey⟩
    exact putAll_isSome _ (.inr (List.ne_nil_of_mem (List.mem_filter.mpr
      ⟨hmem, decide_eq_true hkey⟩)))

variable (value params results)

def ranking : List (Accumulator K) :=
  (values (accumulators (exactArith value) params results)).mergeSort fun left right =>
    (compareFused (exactArith value) params left right).isLE

variable {value params results}

theorem mem_ranking : entry ∈ ranking value params results ↔
    ∃ key : String, (accumulators (exactArith value) params results)[key]? = some entry := by
  rw [ranking, List.mem_mergeSort, mem_values]

/-- Two entries are told apart by what their keys are made of. -/
theorem ranking_distinct :
    ((ranking value params results).map (Accumulator.identity params.dedup)).Nodup := by
  refine ((List.mergeSort_perm _ _).map _).nodup_iff.mpr ?_
  rw [values, List.map_map]
  refine List.pairwise_map.mpr (Std.ExtTreeMap.distinct_keys_toList.imp_of_mem
    fun {first second} hfirst hsecond hne hsame => hne ?_)
  rw [Std.ExtTreeMap.mem_toList_iff_getElem?_eq_some] at hfirst hsecond
  obtain ⟨left, -, hleft⟩ := (exists_entry_iff first.1).mp ⟨_, hfirst⟩
  obtain ⟨right, -, hright⟩ := (exists_entry_iff second.1).mp ⟨_, hsecond⟩
  have hidentity := (identity_of_getElem? hfirst hleft).trans
    (hsame.trans (identity_of_getElem? hsecond hright).symm)
  exact compare_eq_iff_eq.mpr (hleft.symm.trans ((fusionKey_inj.mpr hidentity).trans hright))

/-- A key is that of an entry exactly when it is built from what tells the entry apart. -/
theorem filter_identity
    (h : (accumulators (exactArith value) params results)[key]? = some entry) :
    ((occurrences results).filter fun occurrence =>
      identity params.dedup occurrence = entry.identity params.dedup) =
        (occurrences results).filter fun occurrence => fusionKey params.dedup occurrence = key := by
  obtain ⟨member, -, hmember⟩ := (exists_entry_iff key).mp ⟨_, h⟩
  refine List.filter_congr fun occurrence _ => decide_eq_decide.mpr ?_
  rw [← identity_of_getElem? h hmember, ← fusionKey_inj, hmember]

/-- The place of an entry's representative is that of one of its occurrences. -/
theorem representative_of_mem (h : entry ∈ ranking value params results) :
    ∃ best ∈ occurrences results, entry.representativeOrder = best.order ∧
      identity params.dedup best = entry.identity params.dedup := by
  obtain ⟨key, hkey⟩ := mem_ranking.mp h
  obtain ⟨best, hbest, -, horder⟩ := (accumulates_of_getElem? hkey).representative
  obtain ⟨hmem, hbestKey⟩ := List.mem_filter.mp hbest.mem
  exact ⟨best, hmem, horder, identity_of_getElem? hkey (of_decide_eq_true hbestKey)⟩

theorem ranking_exact : ExactFusion value params results (ranking value params results) where
  distinct := ranking_distinct
  members key := by
    constructor
    · intro h
      obtain ⟨entry, hentry, rfl⟩ := List.mem_map.mp h
      obtain ⟨best, hbest, -, hidentity⟩ := representative_of_mem hentry
      exact List.mem_map.mpr ⟨best, hbest, hidentity⟩
    · intro h
      obtain ⟨occurrence, hmem, rfl⟩ := List.mem_map.mp h
      obtain ⟨entry, hentry⟩ : ∃ entry, (accumulators (exactArith value) params
          results)[fusionKey params.dedup occurrence]? = some entry :=
        (exists_entry_iff _).mpr ⟨occurrence, hmem, rfl⟩
      exact List.mem_map.mpr ⟨entry, mem_ranking.mpr ⟨_, hentry⟩,
        (identity_of_getElem? hentry rfl).symm⟩
  accumulates entry h := by
    obtain ⟨key, hkey⟩ := mem_ranking.mp h
    rw [filter_identity hkey]
    exact accumulates_of_getElem? hkey
  sorted := by
    have hsorted := pairwise_mergeSort_isLE (compareFused (exactArith value) params)
      (values (accumulators (exactArith value) params results))
    have hdistinct : ((ranking value params results).map _).Nodup := ranking_distinct
    refine (hsorted.and (List.pairwise_map.mp hdistinct)).imp_of_mem fun {left right} hleft hright hboth =>
      precedes_of_isLE (fun hsame => hboth.2 ?_) hboth.1
    obtain ⟨best, hbest, horder, hidentity⟩ := representative_of_mem hleft
    obtain ⟨other, hother, horder', hidentity'⟩ := representative_of_mem hright
    rw [← hidentity, ← hidentity',
      eq_of_order hbest hother (horder.symm.trans (hsame.trans horder'))]

/-- What fusion answers is the exact ranking of the records, cut at the limit. -/
theorem fuseResults_exact (value : F32 → K) (params : FusedSearchParams)
    (results : List CollectionSearchResult) : ∃ ranking : List (Accumulator K),
      ExactFusion value params results ranking ∧
      fuseResults (exactArith value) params results = {
        fusion := params.fusion
        dedup := params.dedup
        results
        hits := ((ranking.take params.finalLimit).zipIdx).map rankedHit } ∧
      (fuseResults (exactArith value) params results).hits.map (·.fusionRank) =
        List.range' 1 (min params.finalLimit ranking.length) ∧
      ∀ kept ∈ ranking.take params.finalLimit, ∀ dropped ∈ ranking.drop params.finalLimit,
        Precedes params.preferRecent kept dropped := by
  refine ⟨ranking value params results, ranking_exact, rfl, ?_,
    pairwise_take_drop ranking_exact.sorted _⟩
  have hranks (entries : List (Accumulator K)) :
      (entries.zipIdx.map rankedHit).map (·.fusionRank) = List.range' 1 entries.length := by
    rw [List.map_map]
    have hsucc : ((·.fusionRank) ∘ rankedHit : Accumulator K × ℕ → ℕ) = (1 + ·) ∘ Prod.snd :=
      funext fun entry => Nat.add_comm entry.2 1
    rw [hsucc, ← List.map_map, List.zipIdx_map_snd, List.map_add_range']
  rw [← List.length_take]
  exact hranks _

end Ranking

end Exact

end Ketebe.Mcp
