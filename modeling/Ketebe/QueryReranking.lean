import Ketebe.CostPlanner
import Ketebe.Lib.KeyedTable
import Ketebe.Reranking

/-!
Reranking within a query: the hits are projected to candidates, and the answer of the
service is joined to the hits by their ids.
-/
namespace Ketebe.Query

open Lib.ByteCodec Lib.KeyedTable Reranking

inductive QueryModeV1 where
  | dense
  | lexical
  | hybrid
  deriving DecidableEq

structure QueryRerankV1 where
  profile : String
  query : Option String
  topN : ℕ
  textFields : List FieldPath
  includeMetadata : Bool
  failurePolicy : RerankFailurePolicy
  deriving DecidableEq

structure QueryV1Request where
  collectionId : CollectionId
  vector : Option (List F32)
  text : Option String
  topK : ℕ
  predicate : Option Predicate
  execution : ExecutionPreference
  denseCandidates : Option ℕ
  lexicalCandidates : Option ℕ
  rrfK : ℕ
  searchProfile : Option String
  includeMetadata : Bool
  includeProvenance : Bool
  explain : Bool
  timeoutMs : Option ℕ
  rerank : Option QueryRerankV1

structure QueryV1Hit where
  id : RecordId
  score : F32
  sequenceNumber : SequenceNumber
  metadata : Metadata
  denseRank : Option ℕ
  lexicalRank : Option ℕ
  denseScore : Option F32
  lexicalScore : Option F32
  rerankScore : Option F32
  originalRank : Option ℕ

structure QueryRerankExplainV1 where
  profile : String
  provider : String
  inputCandidates : ℕ
  applied : Bool
  fallbackReason : Option String

structure QueryV1Explain where
  mode : QueryModeV1
  strategy : String
  reason : String
  topK : ℕ
  denseCandidates : Option ℕ
  lexicalCandidates : Option ℕ
  rrfK : Option ℕ
  hasPredicate : Bool
  searchProfile : String
  timeoutMs : Option ℕ
  rerank : Option QueryRerankExplainV1

structure QueryV1Response where
  hits : List QueryV1Hit
  explain : Option QueryV1Explain

inductive QueryV1Error where
  | invalid (message : String)
  | unsupportedSearchProfile (profile : String)
  | rerankerProfileNotFound (profile : String)
  | reranking (error : RerankingError)
  | deadlineExceeded
  | cancelled
  | internal (message : String)
  | panicked (message : String)
  deriving DecidableEq

def mapControlError : QueryControlError → QueryV1Error
  | .deadlineExceeded => .deadlineExceeded
  | .cancelled => .cancelled

/-! ### Reranked hits -/

def rerankedHit (hit : QueryV1Hit) (value : RerankedCandidate) : QueryV1Hit :=
  { hit with
    originalRank := some value.originalRank
    rerankScore := value.rerankScore
    score := value.rerankScore.getD hit.score }

/-- Each candidate takes the hit of its id out of those that are left. -/
def joinHits (rawHits : Std.ExtTreeMap RecordId QueryV1Hit compare) :
    List RerankedCandidate → Except QueryV1Error (List QueryV1Hit)
  | [] => .ok []
  | value :: rest => match rawHits[value.candidate.id]? with
    | none => .error (.panicked "reranker returns only supplied candidates")
    | some hit => do
      let hits ← joinHits (rawHits.erase value.candidate.id) rest
      pure (rerankedHit hit value :: hits)

/-- What the control of a query says around the call of the service, how long it leaves
for it, and whether the service answers by then. -/
structure RerankControl where
  before : QueryControl
  remaining : Option ℕ
  answered : Bool
  after : QueryControl

/-- What a query reranks its hits with. -/
structure RerankCall where
  rerankers : String → Option Reranker
  request : QueryV1Request
  rerank : QueryRerankV1
  response : QueryV1Response
  control : RerankControl

namespace RerankCall

variable (numberText : F64 → String) (call : RerankCall)

def candidates : Except RerankingError (List RerankCandidate) :=
  call.response.hits.mapM fun hit =>
    CandidateProjection.project ⟨call.rerank.textFields, call.rerank.includeMetadata⟩ numberText
      hit.id hit.metadata hit.score

def provider : Except QueryV1Error Reranker :=
  match call.rerankers call.rerank.profile with
  | some provider => .ok provider
  | none => .error (.rerankerProfileNotFound call.rerank.profile)

def query : Except QueryV1Error String :=
  match call.rerank.query.or call.request.text with
  | some query => .ok query
  | none => .error (.panicked "rerank query was validated")

/-- Without time, or when it runs out, the service is not heard. -/
def timely : Except QueryV1Error Unit :=
  if call.control.remaining.getD 0 = 0 then .error .deadlineExceeded
  else if call.control.answered then .ok ()
  else .error .deadlineExceeded

def explained (explain : RerankExplain) : Option QueryV1Explain :=
  call.response.explain.map fun response => { response with
    rerank := some ⟨call.rerank.profile, explain.provider, explain.inputCandidates, explain.applied,
      explain.fallbackReason⟩ }

def applyReranking : Except QueryV1Error QueryV1Response := do
  call.control.before.check.mapError mapControlError
  let provider ← call.provider
  let candidates ← (call.candidates numberText).mapError .reranking
  let query ← call.query
  call.timely
  let result ← (RerankingService.rerank ⟨provider, call.rerank.failurePolicy⟩ query candidates
    call.request.topK).mapError .reranking
  call.control.after.check.mapError mapControlError
  let hits ← joinHits (ofValues (·.id) call.response.hits) result.candidates
  pure ⟨hits, call.explained result.explain⟩

/-- The call reaches the service in time, with these candidates and this query. -/
structure Reaches (service : RerankingService) (query : String) (candidates : List RerankCandidate)
    (finalTopK : ℕ) : Prop where
  before : call.control.before.check = .ok ()
  provider : call.provider = .ok service.reranker
  policy : call.rerank.failurePolicy = service.failurePolicy
  candidates : call.candidates numberText = .ok candidates
  query : call.query = .ok query
  timely : call.timely = .ok ()
  finalTopK : call.request.topK = finalTopK
  after : call.control.after.check = .ok ()

/-- The hits of a response, reranked one by one. -/
def Joined (kept : List RerankedCandidate) (hits : List QueryV1Hit) : Prop :=
  List.Forall₂ (fun value hit => ∃ raw, call.response.hits[value.originalRank - 1]? = some raw ∧
    raw.id = value.candidate.id ∧ hit = rerankedHit raw value) kept hits

end RerankCall

/-! ### Joining -/

theorem joinHits_ok {rawHits : Std.ExtTreeMap RecordId QueryV1Hit compare}
    {kept : List RerankedCandidate} {supplied : RerankedCandidate → QueryV1Hit → Prop}
    (hdistinct : (kept.map (·.candidate.id)).Nodup)
    (hsupplied : ∀ value ∈ kept, ∃ raw, rawHits[value.candidate.id]? = some raw ∧
      supplied value raw) :
    ∃ hits, joinHits rawHits kept = .ok hits ∧
      List.Forall₂ (fun value hit => ∃ raw, supplied value raw ∧ hit = rerankedHit raw value)
        kept hits := by
  induction kept generalizing rawHits with
  | nil => exact ⟨[], rfl, .nil⟩
  | cons value rest ih =>
    obtain ⟨hnew, hrest⟩ := List.nodup_cons.mp hdistinct
    obtain ⟨⟨raw, hraw, hvalue⟩, hsuppliedRest⟩ := List.forall_mem_cons.mp hsupplied
    have herased : ∀ other ∈ rest, ∃ raw,
        (rawHits.erase value.candidate.id)[other.candidate.id]? = some raw ∧
          supplied other raw := by
      intro other hother
      have hne : value.candidate.id ≠ other.candidate.id := fun hsame =>
        hnew (List.mem_map.mpr ⟨other, hother, hsame.symm⟩)
      rw [Std.ExtTreeMap.getElem?_erase, if_neg fun h => hne (compare_eq_iff_eq.mp h)]
      exact hsuppliedRest other hother
    obtain ⟨hits, hjoin, hpairs⟩ := ih hrest herased
    refine ⟨rerankedHit raw value :: hits, ?_, .cons ⟨raw, hvalue, rfl⟩ hpairs⟩
    rw [joinHits, hraw, hjoin]
    rfl

namespace RerankCall

variable {numberText : F64 → String} {call : RerankCall} {service : RerankingService}
variable {query : String} {candidates : List RerankCandidate} {finalTopK : ℕ}

theorem candidates_getElem? (h : call.candidates numberText = .ok candidates) {place : ℕ}
    {candidate : RerankCandidate} (hplace : candidates[place]? = some candidate) :
    ∃ hit, call.response.hits[place]? = some hit ∧ hit.id = candidate.id := by
  have hpairs := except_mapM_ok.mp h
  obtain ⟨hlt, hcandidate⟩ := List.getElem?_eq_some_iff.mp hplace
  have hhits : place < call.response.hits.length := by rwa [hpairs.length_eq]
  have hproject := hpairs.get hhits hlt
  refine ⟨call.response.hits[place], List.getElem?_eq_getElem hhits, ?_⟩
  rw [← hcandidate]
  exact (CandidateProjection.project_id hproject).symm

theorem candidates_ids (h : call.candidates numberText = .ok candidates) :
    candidates.map (·.id) = call.response.hits.map (·.id) := by
  have hpairs := except_mapM_ok.mp h
  clear h
  generalize call.response.hits = hits at hpairs
  induction hpairs with
  | nil => rfl
  | cons hhead _ ih => rw [List.map_cons, List.map_cons, ih, CandidateProjection.project_id hhead]

/-- The hits of a response are found by their ids. -/
theorem rawHits_getElem? (hids : (call.response.hits.map (·.id)).Nodup) {place : ℕ}
    {hit : QueryV1Hit} (hplace : call.response.hits[place]? = some hit) :
    (ofValues (·.id) call.response.hits)[hit.id]? = some hit := by
  have hmem := List.mem_of_getElem? hplace
  have hsome : (call.response.hits.find? fun other => other.id = hit.id).isSome :=
    List.find?_isSome.mpr ⟨hit, hmem, decide_eq_true rfl⟩
  obtain ⟨other, hother⟩ := Option.isSome_iff_exists.mp hsome
  have hid := List.find?_some hother
  simp only [decide_eq_true_eq] at hid
  have hsame := List.inj_on_of_nodup_map hids (List.mem_of_find?_eq_some hother) hmem hid
  rw [ofValues, getElem?_foldl_insert hids, Std.ExtTreeMap.getElem?_empty, Option.or_none]
  exact hother.trans (congrArg some hsame)

theorem joined_of_prefix (hcandidates : call.candidates numberText = .ok candidates)
    (hids : (candidates.map (·.id)).Nodup) {outcome : Except RerankerError (List RerankScore)}
    {kept : List RerankedCandidate}
    (hkept : RerankingService.RerankedPrefix candidates outcome finalTopK kept) :
    ∃ hits, joinHits (ofValues (·.id) call.response.hits) kept = .ok hits ∧
      call.Joined kept hits := by
  have hhits := hids
  rw [candidates_ids hcandidates] at hhits
  have hsupplied : ∀ value ∈ kept, ∃ raw,
      (ofValues (·.id) call.response.hits)[value.candidate.id]? = some raw ∧
        (call.response.hits[value.originalRank - 1]? = some raw ∧ raw.id = value.candidate.id) := by
    intro value hvalue
    obtain ⟨raw, hraw, hid⟩ := candidates_getElem? hcandidates (hkept.original hvalue).2
    exact ⟨raw, hid ▸ rawHits_getElem? hhits hraw, hraw, hid⟩
  obtain ⟨hits, hjoin, hpairs⟩ := joinHits_ok hkept.distinct hsupplied
  exact ⟨hits, hjoin, hpairs.imp fun value hit ⟨raw, ⟨hraw, hid⟩, hhit⟩ => ⟨raw, hraw, hid, hhit⟩⟩

/-- A call that reaches the service answers its error, or the hits that it kept. -/
theorem apply_of_reaches (h : call.Reaches numberText service query candidates finalTopK)
    (hids : (candidates.map (·.id)).Nodup) :
    match service.rerank query candidates finalTopK with
      | .error error => call.applyReranking numberText = .error (.reranking error)
      | .ok result => ∃ reply, call.applyReranking numberText = .ok reply ∧
          call.Joined result.candidates reply.hits := by
  have happly : call.applyReranking numberText = (do
      let result ← (service.rerank query candidates finalTopK).mapError QueryV1Error.reranking
      let hits ← joinHits (ofValues (·.id) call.response.hits) result.candidates
      pure ⟨hits, call.explained result.explain⟩) := by
    rw [applyReranking, h.before, h.provider, h.candidates, h.query, h.timely, h.policy,
      h.finalTopK, h.after]
    simp only [Except.mapError, except_ok_bind]
  cases hrerank : service.rerank query candidates finalTopK with
  | error error => rw [happly, hrerank]; rfl
  | ok result =>
    obtain ⟨hits, hjoin, hjoined⟩ := joined_of_prefix h.candidates hids
      (RerankingService.rerank_prefix hids hrerank)
    refine ⟨⟨hits, call.explained result.explain⟩, ?_, hjoined⟩
    have hbind : call.applyReranking numberText = (do
        let hits ← joinHits (ofValues (·.id) call.response.hits) result.candidates
        pure ⟨hits, call.explained result.explain⟩) := by
      rw [happly, hrerank]
      rfl
    rw [hbind, hjoin]
    rfl

end RerankCall

/-! ### The contract of reranking -/

/-- Answers are truncated permutations, they reach the query as they are, and under the
policy to preserve the order no answer of the provider is an error. -/
structure RerankingHonoured (numberText : F64 → String) (service : RerankingService)
    (query : String) (candidates : List RerankCandidate) (finalTopK : ℕ) : Prop where
  answer (result : RerankResult) : service.rerank query candidates finalTopK = .ok result →
    RerankingService.RerankedPrefix candidates (service.reranker.rerank query candidates) finalTopK
      result.candidates
  applied (call : RerankCall) : call.Reaches numberText service query candidates finalTopK →
    match service.rerank query candidates finalTopK with
      | .error error => call.applyReranking numberText = .error (.reranking error)
      | .ok result => ∃ reply, call.applyReranking numberText = .ok reply ∧
          call.Joined result.candidates reply.hits
  preserved : service.Preserved query candidates finalTopK

def sampleCandidate : RerankCandidate := ⟨.unsigned 1, "document", .empty, ⟨0⟩⟩

/-- A service that answers these scores whatever it is asked. -/
def scoringService (scores : List RerankScore) : RerankingService :=
  ⟨⟨"sample", fun _ _ => .ok scores⟩, .preserveCandidateOrder⟩

theorem sampleCandidate_asked : RerankingService.Asked "query" [sampleCandidate] 1 where
  queryText := by decide
  positive := one_ne_zero
  nonempty := List.cons_ne_nil _ _
  texts := by decide

/-- No scores for one candidate. -/
theorem not_rerankingHonoured_noScores :
    ¬ RerankingHonoured (fun _ => "") (scoringService []) "query" [sampleCandidate] 1 := by
  intro h
  have hcomplete := RerankingService.preserved_iff.mp h.preserved rfl sampleCandidate_asked [] rfl
  exact absurd hcomplete.length Nat.zero_ne_one

/-- Under the policy to preserve the order, malformed scores still fail. -/
theorem rerankingHonoured_iff (numberText : F64 → String) (service : RerankingService)
    (query : String) (candidates : List RerankCandidate) (finalTopK : ℕ)
    (hids : (candidates.map (·.id)).Nodup) :
    RerankingHonoured numberText service query candidates finalTopK ↔
      service.Covered query candidates finalTopK := by
  constructor
  · exact fun h => RerankingService.preserved_iff.mp h.preserved
  · intro h
    refine ⟨fun result => RerankingService.rerank_prefix hids, fun call hcall => ?_,
      RerankingService.preserved_iff.mpr h⟩
    have happlied := RerankCall.apply_of_reaches hcall hids
    cases hrerank : service.rerank query candidates finalTopK with
    | error error =>
      rw [hrerank] at happlied
      exact happlied
    | ok result =>
      rw [hrerank] at happlied
      exact happlied

theorem rerankingHonoured_oneScore :
    RerankingHonoured (fun _ => "") (scoringService [⟨0, ⟨0x3f800000⟩⟩]) "query" [sampleCandidate] 1 := by
  have hids : ([sampleCandidate].map (·.id)).Nodup := List.nodup_singleton _
  refine (rerankingHonoured_iff _ _ _ _ 1 hids).mpr fun _ _ scores h => ?_
  cases h
  exact ⟨rfl, by decide, List.nodup_singleton _, by decide⟩

end Ketebe.Query
