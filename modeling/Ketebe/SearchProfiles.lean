import Ketebe.QueryReranking

/-!
Search profiles as defaults of queries. The values of a request that equal the built-in
defaults give way to those of the selected profile.
-/
namespace Ketebe.Query

open Lib.ByteCodec

def defaultQueryTopK : ℕ := 10

def defaultRrfK : ℕ := 60

/-! ### Requests -/

namespace QueryV1Request

variable (request : QueryV1Request)

def hasText : Bool := request.text.any fun text => trim text ≠ ""

def hasVector : Bool := request.vector.any fun vector => !vector.isEmpty

def validateRerank (rerank : QueryRerankV1) : Except QueryV1Error Unit :=
  if trim rerank.profile = "" then .error (.invalid "rerank profile must not be empty")
  else if rerank.topN < request.topK then
    .error (.invalid "rerank top_n must be greater than or equal to top_k")
  else if rerank.textFields = [] then
    .error (.invalid "rerank text_fields must contain at least one field")
  else if !(rerank.query.any (fun query => trim query ≠ "") || request.hasText) then
    .error (.invalid "reranking requires rerank.query or query text")
  else .ok ()

def mode : Except QueryV1Error QueryModeV1 :=
  match request.hasVector, request.hasText with
  | true, false => .ok .dense
  | false, true => .ok .lexical
  | true, true => .ok .hybrid
  | false, false => .error (.invalid "query requires a non-empty vector and/or query text")

def validate : Except QueryV1Error QueryModeV1 :=
  if request.topK = 0 then .error (.invalid "top_k must be greater than zero")
  else if request.timeoutMs = some 0 then
    .error (.invalid "timeout_ms must be greater than zero when provided")
  else if request.denseCandidates = some 0 ∨ request.lexicalCandidates = some 0 then
    .error (.invalid "candidate limits must be greater than zero when provided")
  else if request.rrfK = 0 then .error (.invalid "rrf_k must be greater than zero")
  else match request.rerank with
    | none => request.mode
    | some rerank => do
      request.validateRerank rerank
      request.mode

/-- What is asked of the reranking of a request. -/
structure AcceptsRerank (rerank : QueryRerankV1) : Prop where
  profile : trim rerank.profile ≠ ""
  topN : request.topK ≤ rerank.topN
  textFields : rerank.textFields ≠ []
  query : rerank.query.any (fun query => trim query ≠ "") ∨ request.hasText

/-- What is asked of a request. -/
structure Accepted : Prop where
  topK : request.topK ≠ 0
  timeoutMs : request.timeoutMs ≠ some 0
  denseCandidates : request.denseCandidates ≠ some 0
  lexicalCandidates : request.lexicalCandidates ≠ some 0
  rrfK : request.rrfK ≠ 0
  rerank (rerank : QueryRerankV1) : request.rerank = some rerank → request.AcceptsRerank rerank
  mode : request.hasVector ∨ request.hasText

variable {request}

theorem validateRerank_ok {rerank : QueryRerankV1} :
    request.validateRerank rerank = .ok () ↔ request.AcceptsRerank rerank := by
  unfold validateRerank
  constructor
  · intro h
    split at h
    · cases h
    · rename_i hprofile
      split at h
      · cases h
      · rename_i htopN
        split at h
        · cases h
        · rename_i hfields
          split at h
          · cases h
          · rename_i hquery
            rw [Bool.not_eq_true', Bool.not_eq_false, Bool.or_eq_true] at hquery
            exact ⟨hprofile, not_lt.mp htopN, hfields, hquery⟩
  · intro h
    have hquery := Bool.or_eq_true _ _ ▸ h.query
    rw [if_neg h.profile, if_neg (not_lt.mpr h.topN), if_neg h.textFields, hquery]
    rfl

theorem mode_ok : (∃ mode, request.mode = .ok mode) ↔ request.hasVector ∨ request.hasText := by
  unfold mode
  cases request.hasVector <;> cases request.hasText <;> simp

theorem validate_ok : (∃ mode, request.validate = .ok mode) ↔ request.Accepted := by
  constructor
  · intro ⟨mode, h⟩
    unfold validate at h
    split at h
    · cases h
    · rename_i htopK
      split at h
      · cases h
      · rename_i htimeout
        split at h
        · cases h
        · rename_i hcandidates
          split at h
          · cases h
          · rename_i hrrfK
            obtain ⟨hdense, hlexical⟩ := not_or.mp hcandidates
            cases hrerank : request.rerank with
            | none =>
              rw [hrerank] at h
              exact ⟨htopK, htimeout, hdense, hlexical, hrrfK, fun rerank => by rw [hrerank]; nofun,
                mode_ok.mp ⟨mode, h⟩⟩
            | some rerank =>
              rw [hrerank] at h
              obtain ⟨checked, hchecked, hmode⟩ := except_bind_ok.mp h
              refine ⟨htopK, htimeout, hdense, hlexical, hrrfK, fun other hother => ?_,
                mode_ok.mp ⟨mode, hmode⟩⟩
              rw [hrerank] at hother
              exact Option.some.inj hother ▸ validateRerank_ok.mp hchecked
  · intro h
    obtain ⟨mode, hmode⟩ := mode_ok.mpr h.mode
    refine ⟨mode, ?_⟩
    rw [validate, if_neg h.topK, if_neg h.timeoutMs,
      if_neg (not_or.mpr ⟨h.denseCandidates, h.lexicalCandidates⟩), if_neg h.rrfK]
    cases hrerank : request.rerank with
    | none => exact hmode
    | some rerank =>
      change (request.validateRerank rerank >>= fun _ => request.mode) = _
      rw [validateRerank_ok.mpr (h.rerank rerank hrerank)]
      exact hmode

end QueryV1Request

/-! ### Profiles -/

inductive SearchProfileExecution where
  | auto
  | exact
  | hnsw
  deriving DecidableEq

def SearchProfileExecution.toPreference : SearchProfileExecution → ExecutionPreference
  | .auto => .auto
  | .exact => .exact
  | .hnsw => .hnsw

inductive SearchProfileFailurePolicy where
  | fail
  | preserveCandidateOrder
  deriving DecidableEq

def SearchProfileFailurePolicy.toPolicy : SearchProfileFailurePolicy → RerankFailurePolicy
  | .fail => .fail
  | .preserveCandidateOrder => .preserveCandidateOrder

inductive SearchProfileError where
  | invalid (message : String)
  | alreadyExists (selector : String)
  | notFound (selector : String)
  | io (message : String)
  | json (message : String)
  deriving DecidableEq

def SearchProfileError.display : SearchProfileError → String
  | .invalid message => "invalid search profile: " ++ message
  | .alreadyExists selector => "search profile '" ++ selector ++ "' already exists"
  | .notFound selector => "search profile '" ++ selector ++ "' was not found"
  | .io message => "search profile store failed: " ++ message
  | .json message => "search profile data is corrupt: " ++ message

structure SearchProfileRerank where
  profile : String
  topN : ℕ
  textFields : List (List String)
  includeMetadata : Bool
  failurePolicy : SearchProfileFailurePolicy
  deriving DecidableEq

structure SearchProfile where
  name : String
  version : ℕ
  execution : SearchProfileExecution
  denseCandidates : Option ℕ
  lexicalCandidates : Option ℕ
  rrfK : ℕ
  finalTopK : ℕ
  timeoutMs : Option ℕ
  rerank : Option SearchProfileRerank
  deriving DecidableEq

def checkTextField (path : List String) : Except SearchProfileError Unit :=
  match FieldPath.new path with
  | .ok _ => .ok ()
  | .error error => .error (.invalid error.display)

def SearchProfileRerank.validate (rerank : SearchProfileRerank) (finalTopK : ℕ) :
    Except SearchProfileError Unit :=
  if trim rerank.profile = "" then .error (.invalid "reranker profile must not be empty")
  else if rerank.topN < finalTopK then
    .error (.invalid "rerank top_n must be greater than or equal to final_top_k")
  else if rerank.textFields = [] then
    .error (.invalid "rerank text_fields must contain at least one field")
  else forM rerank.textFields checkTextField

def validateName (name : String) : Except SearchProfileError Unit :=
  if name ≠ "" ∧ name.utf8ByteSize ≤ 64 ∧
      (name.toList.all fun character => character.isAlphanum || character == '-' ||
        character == '_') then
    .ok ()
  else .error (.invalid "profile name must be 1..=64 ASCII letters, digits, '-' or '_'")

namespace SearchProfile

variable (profile : SearchProfile)

def validate : Except SearchProfileError Unit := do
  validateName profile.name
  if profile.version = 0 then throw (.invalid "profile version must be greater than zero")
  else if profile.finalTopK = 0 then throw (.invalid "final_top_k must be greater than zero")
  else if profile.denseCandidates = some 0 ∨ profile.lexicalCandidates = some 0 then
    throw (.invalid "candidate limits must be greater than zero when provided")
  else if profile.rrfK = 0 then throw (.invalid "rrf_k must be greater than zero")
  else if profile.timeoutMs = some 0 then
    throw (.invalid "timeout_ms must be greater than zero when provided")
  else match profile.rerank with
    | none => pure ()
    | some rerank => rerank.validate profile.finalTopK

def pinnedId : String := s!"{profile.name}@{profile.version}"

def builtIn : SearchProfile :=
  ⟨"default", 1, .auto, none, none, defaultRrfK, defaultQueryTopK, none, none⟩

/-- What a valid profile promises to the requests it is merged into. -/
structure Valid : Prop where
  finalTopK : profile.finalTopK ≠ 0
  denseCandidates : profile.denseCandidates ≠ some 0
  lexicalCandidates : profile.lexicalCandidates ≠ some 0
  rrfK : profile.rrfK ≠ 0
  timeoutMs : profile.timeoutMs ≠ some 0
  rerank (rerank : SearchProfileRerank) : profile.rerank = some rerank →
    rerank.validate profile.finalTopK = .ok ()

variable {profile}

theorem validate_ok (h : profile.validate = .ok ()) : profile.Valid := by
  obtain ⟨named, -, h⟩ := except_bind_ok.mp h
  split at h
  · cases h
  · split at h
    · cases h
    · rename_i htopK
      split at h
      · cases h
      · rename_i hcandidates
        split at h
        · cases h
        · rename_i hrrfK
          split at h
          · cases h
          · rename_i htimeout
            obtain ⟨hdense, hlexical⟩ := not_or.mp hcandidates
            refine ⟨htopK, hdense, hlexical, hrrfK, htimeout, fun rerank hrerank => ?_⟩
            rw [hrerank] at h
            exact h

end SearchProfile

theorem checkTextFields_ok {paths : List (List String)} (h : forM paths checkTextField = .ok ()) :
    ∃ fields, paths.mapM FieldPath.new = .ok fields := by
  induction paths with
  | nil => exact ⟨[], rfl⟩
  | cons path rest ih =>
    rw [List.forM_cons] at h
    obtain ⟨checked, hchecked, hrest⟩ := except_bind_ok.mp h
    obtain ⟨fields, hfields⟩ := ih hrest
    unfold checkTextField at hchecked
    split at hchecked
    · rename_i field hfield
      exact ⟨field :: fields, by rw [List.mapM_cons, hfield, hfields]; rfl⟩
    · cases hchecked

namespace SearchProfileRerank

variable {rerank : SearchProfileRerank} {finalTopK : ℕ}

/-- What a valid reranking of a profile promises. -/
structure Valid (rerank : SearchProfileRerank) (finalTopK : ℕ) : Prop where
  profile : trim rerank.profile ≠ ""
  topN : finalTopK ≤ rerank.topN
  textFields : rerank.textFields ≠ []
  paths : ∃ fields, rerank.textFields.mapM FieldPath.new = .ok fields

theorem validate_ok (h : rerank.validate finalTopK = .ok ()) : rerank.Valid finalTopK := by
  unfold validate at h
  split at h
  · cases h
  · rename_i hprofile
    split at h
    · cases h
    · rename_i htopN
      split at h
      · cases h
      · rename_i hfields
        exact ⟨hprofile, not_lt.mp htopN, hfields, checkTextFields_ok h⟩

/-- The reranking of a profile as that of a request, which asks no query of its own. -/
def intoDomain (rerank : SearchProfileRerank) : Except PredicateError QueryRerankV1 := do
  let textFields ← rerank.textFields.mapM FieldPath.new
  pure ⟨rerank.profile, none, rerank.topN, textFields, rerank.includeMetadata,
    rerank.failurePolicy.toPolicy⟩

/-- A valid reranking is also one of requests. -/
theorem Valid.intoDomain (h : rerank.Valid finalTopK) :
    ∃ domain, rerank.intoDomain = .ok domain ∧ trim domain.profile ≠ "" ∧
      domain.topN = rerank.topN ∧ domain.textFields ≠ [] ∧ domain.query = none := by
  obtain ⟨fields, hfields⟩ := h.paths
  have hdomain : rerank.intoDomain = .ok ⟨rerank.profile, none, rerank.topN, fields,
      rerank.includeMetadata, rerank.failurePolicy.toPolicy⟩ := by
    rw [SearchProfileRerank.intoDomain, hfields]
    rfl
  refine ⟨_, hdomain, h.profile, rfl, fun hnil => ?_, rfl⟩
  have hlength := (except_mapM_ok.mp hfields).length_eq
  rw [show fields = [] from hnil] at hlength
  exact h.textFields (List.length_eq_zero_iff.mp hlength)

end SearchProfileRerank

/-! ### Merging -/

def mapSearchProfileError (selector : String) : SearchProfileError → QueryV1Error
  | .notFound _ => .unsupportedSearchProfile selector
  | .invalid message => .invalid message
  | error => .internal error.display

def selectProfile (get : String → String → Except SearchProfileError SearchProfile)
    (request : QueryV1Request) : Except QueryV1Error SearchProfile :=
  let selector := request.searchProfile.getD "default"
  if selector = "default" then .ok .builtIn
  else (get request.collectionId.asStr selector).mapError (mapSearchProfileError selector)

def mergeRerank (rerank : Option QueryRerankV1) (profile : Option SearchProfileRerank) :
    Except QueryV1Error (Option QueryRerankV1) :=
  match rerank, profile with
  | none, some profile => do
    let domain ← profile.intoDomain.mapError fun error =>
      .internal ("persisted search profile contains an invalid rerank field: " ++ error.display)
    pure (some domain)
  | rerank, _ => .ok rerank

def merged (request : QueryV1Request) (profile : SearchProfile) (rerank : Option QueryRerankV1) :
    QueryV1Request :=
  { request with
    topK := if request.topK = defaultQueryTopK then profile.finalTopK else request.topK
    execution := if request.execution = .auto then profile.execution.toPreference
      else request.execution
    denseCandidates := request.denseCandidates.or profile.denseCandidates
    lexicalCandidates := request.lexicalCandidates.or profile.lexicalCandidates
    rrfK := if request.rrfK = defaultRrfK then profile.rrfK else request.rrfK
    timeoutMs := request.timeoutMs.or profile.timeoutMs
    rerank := rerank
    searchProfile := some profile.pinnedId }

def resolveSearchProfile (get : String → String → Except SearchProfileError SearchProfile)
    (request : QueryV1Request) : Except QueryV1Error QueryV1Request := do
  let profile ← selectProfile get request
  let rerank ← mergeRerank request.rerank profile.rerank
  pure (merged request profile rerank)

/-! ### Bodies -/

structure RerankV1Body where
  profile : Option String
  query : Option String
  topN : ℕ
  textFields : List (List String)
  includeMetadata : Option Bool
  failurePolicy : Option RerankFailurePolicy

/-- The body of a query. A field that is not there is none; a null of an optional one is a
value that is none. The predicate is the one its own form stands for. -/
structure QueryV1Body where
  vector : Option (List F32)
  text : Option String
  topK : Option ℕ
  predicate : Option Predicate
  execution : Option ExecutionPreference
  denseCandidates : Option (Option ℕ)
  lexicalCandidates : Option (Option ℕ)
  rrfK : Option ℕ
  searchProfile : Option String
  includeMetadata : Option Bool
  includeProvenance : Option Bool
  explain : Option Bool
  timeoutMs : Option (Option ℕ)
  rerank : Option (Option RerankV1Body)

def RerankV1Body.intoDomain (body : RerankV1Body) : Except PredicateError QueryRerankV1 := do
  let textFields ← body.textFields.mapM FieldPath.new
  pure ⟨body.profile.getD "default", body.query, body.topN, textFields,
    body.includeMetadata.getD false, body.failurePolicy.getD .fail⟩

/-- The request of a body; the error is that of a text field to rerank by. -/
def QueryV1Body.intoRequest (body : QueryV1Body) (collectionId : CollectionId) :
    Except PredicateError QueryV1Request := do
  let rerank ← body.rerank.join.mapM RerankV1Body.intoDomain
  pure ⟨collectionId, body.vector, body.text, body.topK.getD defaultQueryTopK, body.predicate,
    body.execution.getD .auto, body.denseCandidates.join, body.lexicalCandidates.join,
    body.rrfK.getD defaultRrfK, body.searchProfile, body.includeMetadata.getD true,
    body.includeProvenance.getD false, body.explain.getD false, body.timeoutMs.join, rerank⟩

/-! ### What the caller asked for -/

/-- The reranking used is the caller's where the body has the field, a null included. -/
def UsesRerank (profile : Option SearchProfileRerank) (used : Option QueryRerankV1) :
    Option (Option RerankV1Body) → Prop
  | some body => body.mapM RerankV1Body.intoDomain = .ok used
  | none => profile.mapM SearchProfileRerank.intoDomain = .ok used

/-- Each value used is that of the body where the body has the field, and that of the
profile elsewhere. -/
structure RespectsCaller (body : QueryV1Body) (profile : SearchProfile)
    (merged : QueryV1Request) : Prop where
  topK : merged.topK = body.topK.getD profile.finalTopK
  execution : merged.execution = body.execution.getD profile.execution.toPreference
  denseCandidates : merged.denseCandidates = body.denseCandidates.getD profile.denseCandidates
  lexicalCandidates :
    merged.lexicalCandidates = body.lexicalCandidates.getD profile.lexicalCandidates
  rrfK : merged.rrfK = body.rrfK.getD profile.rrfK
  timeoutMs : merged.timeoutMs = body.timeoutMs.getD profile.timeoutMs
  rerank : UsesRerank profile.rerank merged.rerank body.rerank

/-- Where the caller writes a default out, or a null, the profile says the same. -/
structure Compatible (body : QueryV1Body) (profile : SearchProfile) : Prop where
  topK : body.topK = some defaultQueryTopK → profile.finalTopK = defaultQueryTopK
  execution : body.execution = some .auto → profile.execution = .auto
  denseCandidates : body.denseCandidates = some none → profile.denseCandidates = none
  lexicalCandidates : body.lexicalCandidates = some none → profile.lexicalCandidates = none
  rrfK : body.rrfK = some defaultRrfK → profile.rrfK = defaultRrfK
  timeoutMs : body.timeoutMs = some none → profile.timeoutMs = none
  rerank : body.rerank = some none → profile.rerank = none

/-- The numbers of hits of a request and a profile fit the reranking of the other, and
the request has text where the profile reranks. -/
structure Composable (request : QueryV1Request) (profile : SearchProfile) : Prop where
  callerTopN (rerank : QueryRerankV1) : request.rerank = some rerank →
    request.topK = defaultQueryTopK → profile.finalTopK ≤ rerank.topN
  profileTopN (rerank : SearchProfileRerank) : request.rerank = none →
    profile.rerank = some rerank → request.topK ≠ defaultQueryTopK → request.topK ≤ rerank.topN
  text : request.rerank = none → profile.rerank ≠ none → request.hasText

/-- A value that gives way to the profile's when it is the default. -/
theorem sentinel_iff {α : Type} [DecidableEq α] {given : Option α} {default profile : α} :
    (if given.getD default = default then profile else given.getD default) = given.getD profile ↔
      (given = some default → profile = default) := by
  cases given with
  | none => simp
  | some value =>
    simp only [Option.getD_some, Option.some.injEq]
    split
    · rename_i hvalue
      rw [hvalue]
      exact ⟨fun h _ => h, fun h => h rfl⟩
    · rename_i hvalue
      exact ⟨fun _ h => absurd h hvalue, fun _ => rfl⟩

/-- A value that gives way to the profile's when it is none. -/
theorem nullable_iff {α : Type} {given : Option (Option α)} {profile : Option α} :
    given.join.or profile = given.getD profile ↔ (given = some none → profile = none) := by
  cases given with
  | none => simp
  | some value => cases value <;> simp

theorem execution_iff {given : Option ExecutionPreference} {profile : SearchProfileExecution} :
    (if given.getD .auto = .auto then profile.toPreference else given.getD .auto) =
        given.getD profile.toPreference ↔ (given = some .auto → profile = .auto) := by
  rw [sentinel_iff]
  cases profile <;> simp [SearchProfileExecution.toPreference]

section Merge

variable {request : QueryV1Request} {profile : SearchProfile}

/-- A valid profile is merged into any request; its reranking fills in for one that is not
there. -/
theorem mergeRerank_ok (request : QueryV1Request) (hvalid : profile.Valid) :
    ∃ rerank, mergeRerank request.rerank profile.rerank = .ok rerank ∧
      (∀ asked, request.rerank = some asked → rerank = some asked) ∧
      (request.rerank = none → profile.rerank.mapM SearchProfileRerank.intoDomain = .ok rerank) := by
  cases hasked : request.rerank with
  | some asked => exact ⟨some asked, rfl, fun other h => h, nofun⟩
  | none =>
    cases hprofile : profile.rerank with
    | none => exact ⟨none, rfl, nofun, fun _ => rfl⟩
    | some rerank =>
      obtain ⟨domain, hdomain, -⟩ :=
        (SearchProfileRerank.validate_ok (hvalid.rerank rerank hprofile)).intoDomain
      refine ⟨some domain, ?_, nofun, fun _ => ?_⟩
      · rw [mergeRerank, hdomain]
        rfl
      · rw [Option.mapM_some, hdomain]
        rfl

theorem merged_topK_le {rerank : Option QueryRerankV1} {bound : ℕ} :
    (merged request profile rerank).topK ≤ bound ↔
      (request.topK = defaultQueryTopK → profile.finalTopK ≤ bound) ∧
        (request.topK ≠ defaultQueryTopK → request.topK ≤ bound) := by
  change (if request.topK = defaultQueryTopK then profile.finalTopK else request.topK) ≤ bound ↔ _
  split
  · rename_i htopK
    exact ⟨fun h => ⟨fun _ => h, fun hne => absurd htopK hne⟩, fun h => h.1 htopK⟩
  · rename_i htopK
    exact ⟨fun h => ⟨fun heq => absurd heq htopK, fun _ => h⟩, fun h => h.2 htopK⟩

/-- Apart from the reranking a merged request is accepted. -/
theorem accepted_merged (haccepted : request.Accepted) (hvalid : profile.Valid)
    {rerank : Option QueryRerankV1} :
    (merged request profile rerank).Accepted ↔
      ∀ asked, rerank = some asked → (merged request profile rerank).AcceptsRerank asked := by
  have hor : ∀ {given default : Option ℕ}, given ≠ some 0 → default ≠ some 0 →
      given.or default ≠ some 0 := by
    intro given default hgiven hdefault
    cases given with
    | none => exact hdefault
    | some value => exact hgiven
  constructor
  · exact fun h => h.rerank
  · intro h
    refine ⟨?_, hor haccepted.timeoutMs hvalid.timeoutMs,
      hor haccepted.denseCandidates hvalid.denseCandidates,
      hor haccepted.lexicalCandidates hvalid.lexicalCandidates, ?_, h, haccepted.mode⟩
    · change (if request.topK = defaultQueryTopK then profile.finalTopK else request.topK) ≠ 0
      split
      · exact hvalid.finalTopK
      · exact haccepted.topK
    · change (if request.rrfK = defaultRrfK then profile.rrfK else request.rrfK) ≠ 0
      split
      · exact hvalid.rrfK
      · exact haccepted.rrfK

/-- A merged request is accepted exactly where the rerankings fit. -/
theorem accepted_iff (haccepted : request.Accepted) (hvalid : profile.Valid)
    {rerank : Option QueryRerankV1}
    (hmerge : mergeRerank request.rerank profile.rerank = .ok rerank) :
    (merged request profile rerank).Accepted ↔ Composable request profile := by
  rw [accepted_merged haccepted hvalid]
  obtain ⟨merge, hmerge', hcaller, hprofile⟩ := mergeRerank_ok request hvalid
  cases Except.ok.inj (hmerge.symm.trans hmerge')
  cases hasked : request.rerank with
  | some asked =>
    have hold := haccepted.rerank asked hasked
    rw [hcaller asked hasked]
    constructor
    · intro h
      have htopN := merged_topK_le.mp (h asked rfl).topN
      refine ⟨fun other hother => ?_, fun _ hnone => ?_, fun hnone => ?_⟩
      · cases hasked.symm.trans hother
        exact htopN.1
      · cases hasked.symm.trans hnone
      · cases hasked.symm.trans hnone
    · intro h other hother
      cases hother
      exact ⟨hold.profile, merged_topK_le.mpr ⟨h.callerTopN asked hasked, fun _ => hold.topN⟩,
        hold.textFields, hold.query⟩
  | none =>
    have hdomains := hprofile hasked
    cases hreranks : profile.rerank with
    | none =>
      rw [hreranks] at hdomains
      cases hdomains
      refine ⟨fun _ => ⟨fun _ h => ?_, fun _ _ h => ?_, fun _ h => absurd hreranks h⟩, fun _ => nofun⟩
      · cases hasked.symm.trans h
      · cases hreranks.symm.trans h
    | some given =>
      have hgiven := SearchProfileRerank.validate_ok (hvalid.rerank given hreranks)
      obtain ⟨domain, hdomain, hname, htopN, hfields, hquery⟩ := hgiven.intoDomain
      rw [hreranks, Option.mapM_some, hdomain] at hdomains
      cases hdomains
      constructor
      · intro h
        obtain ⟨-, hbound, -, hasks⟩ := h domain rfl
        rw [htopN] at hbound
        rw [hquery] at hasks
        refine ⟨fun _ hsome => ?_, fun other _ hother => ?_, fun _ _ => hasks.resolve_left nofun⟩
        · cases hasked.symm.trans hsome
        · cases hreranks.symm.trans hother
          exact (merged_topK_le.mp hbound).2
      · intro h other hother
        cases hother
        refine ⟨hname, ?_, hfields, .inr (h.text hasked fun hnone => ?_)⟩
        · rw [htopN]
          exact merged_topK_le.mpr ⟨fun _ => hgiven.topN, h.profileTopN given hasked hreranks⟩
        · cases hreranks.symm.trans hnone

theorem intoRequest_ok {body : QueryV1Body} {collectionId : CollectionId}
    (h : body.intoRequest collectionId = .ok request) :
    ∃ rerank, body.rerank.join.mapM RerankV1Body.intoDomain = .ok rerank ∧
      request = ⟨collectionId, body.vector, body.text, body.topK.getD defaultQueryTopK,
        body.predicate, body.execution.getD .auto, body.denseCandidates.join,
        body.lexicalCandidates.join, body.rrfK.getD defaultRrfK, body.searchProfile,
        body.includeMetadata.getD true, body.includeProvenance.getD false,
        body.explain.getD false, body.timeoutMs.join, rerank⟩ := by
  obtain ⟨rerank, hrerank, h⟩ := except_bind_ok.mp h
  exact ⟨rerank, hrerank, (Except.ok.inj h).symm⟩

/-- The reranking that is used is the caller's, unless the caller writes a null over that of
the profile. -/
theorem rerank_iff {given : Option (Option RerankV1Body)} {asked rerank : Option QueryRerankV1}
    (hvalid : profile.Valid) (hasked : given.join.mapM RerankV1Body.intoDomain = .ok asked)
    (hmerge : mergeRerank asked profile.rerank = .ok rerank) :
    UsesRerank profile.rerank rerank given ↔ (given = some none → profile.rerank = none) := by
  cases given with
  | none =>
    cases hasked
    refine ⟨fun _ => nofun, fun _ => ?_⟩
    cases hprofile : profile.rerank with
    | none =>
      rw [hprofile] at hmerge
      cases hmerge
      rfl
    | some reranking =>
      obtain ⟨domain, hdomain, -⟩ :=
        (SearchProfileRerank.validate_ok (hvalid.rerank reranking hprofile)).intoDomain
      rw [hprofile, mergeRerank, hdomain] at hmerge
      cases hmerge
      rw [UsesRerank, Option.mapM_some, hdomain]
      rfl
  | some body =>
    cases body with
    | none =>
      cases hasked
      cases hprofile : profile.rerank with
      | none =>
        rw [hprofile] at hmerge
        cases hmerge
        exact ⟨fun _ _ => rfl, fun _ => rfl⟩
      | some reranking =>
        obtain ⟨domain, hdomain, -⟩ :=
          (SearchProfileRerank.validate_ok (hvalid.rerank reranking hprofile)).intoDomain
        rw [hprofile, mergeRerank, hdomain] at hmerge
        cases hmerge
        exact ⟨nofun, fun h => absurd (h rfl) nofun⟩
    | some body =>
      refine ⟨fun _ => nofun, fun _ => ?_⟩
      obtain ⟨domain, hdomain, hsome⟩ := except_bind_ok.mp hasked
      cases hsome
      cases hmerge
      exact hasked

theorem respectsCaller_iff {body : QueryV1Body} {collectionId : CollectionId}
    (hvalid : profile.Valid) (hrequest : body.intoRequest collectionId = .ok request)
    {rerank : Option QueryRerankV1}
    (hmerge : mergeRerank request.rerank profile.rerank = .ok rerank) :
    RespectsCaller body profile (merged request profile rerank) ↔ Compatible body profile := by
  obtain ⟨asked, hasked, rfl⟩ := intoRequest_ok hrequest
  constructor
  · intro h
    exact ⟨sentinel_iff.mp h.topK, execution_iff.mp h.execution, nullable_iff.mp h.denseCandidates,
      nullable_iff.mp h.lexicalCandidates, sentinel_iff.mp h.rrfK, nullable_iff.mp h.timeoutMs,
      (rerank_iff hvalid hasked hmerge).mp h.rerank⟩
  · intro h
    exact ⟨sentinel_iff.mpr h.topK, execution_iff.mpr h.execution,
      nullable_iff.mpr h.denseCandidates, nullable_iff.mpr h.lexicalCandidates,
      sentinel_iff.mpr h.rrfK, nullable_iff.mpr h.timeoutMs,
      (rerank_iff hvalid hasked hmerge).mpr h.rerank⟩

end Merge

/-- The merged request uses the values the caller gave, and is valid if the body is. -/
def MergeRespected (get : String → String → Except SearchProfileError SearchProfile)
    (body : QueryV1Body) (request : QueryV1Request) (profile : SearchProfile) : Prop :=
  ∃ merged, resolveSearchProfile get request = .ok merged ∧ RespectsCaller body profile merged ∧
    ((∃ mode, request.validate = .ok mode) → ∃ mode, merged.validate = .ok mode)

def sampleCollection : CollectionId := ⟨"docs", CollectionId.validate_docs⟩

/-- A vector and no text, ten hits by a profile. -/
def sampleBody : QueryV1Body :=
  ⟨some [⟨0x3f800000⟩], none, some 10, none, none, none, none, none, some "fast", none, none, none,
    none, none⟩

def fastProfile (finalTopK : ℕ) : SearchProfile :=
  { SearchProfile.builtIn with name := "fast", finalTopK := finalTopK }

def sampleRequest : QueryV1Request :=
  ⟨sampleCollection, some [⟨0x3f800000⟩], none, 10, none, .auto, none, none, 60, some "fast", true,
    false, false, none, none⟩

/-- Ten is asked for and three are used. -/
theorem not_mergeRespected_tenHits :
    sampleBody.intoRequest sampleCollection = .ok sampleRequest ∧
      ¬ MergeRespected (fun _ _ => .ok (fastProfile 3)) sampleBody sampleRequest (fastProfile 3) := by
  refine ⟨rfl, ?_⟩
  rintro ⟨merged, hresolve, hrespects, -⟩
  cases hresolve
  exact absurd hrespects.topK (by decide)

/-- Sentinels hide what the caller wrote, and no merged request is checked against its
parts. -/
theorem mergeRespected_iff {get : String → String → Except SearchProfileError SearchProfile}
    {body : QueryV1Body} {collectionId : CollectionId} {request : QueryV1Request}
    {profile : SearchProfile} (hrequest : body.intoRequest collectionId = .ok request)
    (hselect : selectProfile get request = .ok profile) (hvalid : profile.validate = .ok ()) :
    MergeRespected get body request profile ↔
      Compatible body profile ∧ (request.Accepted → Composable request profile) := by
  have hprofile := SearchProfile.validate_ok hvalid
  obtain ⟨rerank, hmerge, -⟩ := mergeRerank_ok request hprofile
  have hresolve : resolveSearchProfile get request = .ok (merged request profile rerank) := by
    rw [resolveSearchProfile, hselect]
    change (mergeRerank request.rerank profile.rerank >>= fun rerank => _) = _
    rw [hmerge]
    rfl
  have hrespects := respectsCaller_iff hprofile hrequest hmerge
  rw [MergeRespected, QueryV1Request.validate_ok]
  constructor
  · intro ⟨next, hnext, hcaller, haccepted⟩
    cases Except.ok.inj (hresolve.symm.trans hnext)
    refine ⟨hrespects.mp hcaller, fun h => ?_⟩
    exact (accepted_iff h hprofile hmerge).mp (QueryV1Request.validate_ok.mp (haccepted h))
  · intro ⟨hcompatible, hcomposable⟩
    refine ⟨_, hresolve, hrespects.mpr hcompatible, fun h => ?_⟩
    exact QueryV1Request.validate_ok.mpr ((accepted_iff h hprofile hmerge).mpr (hcomposable h))

/-- A profile for ten hits respects a caller who asks for ten. -/
theorem mergeRespected_sameTopK : MergeRespected (fun _ _ => .ok (fastProfile 10)) sampleBody
    sampleRequest (fastProfile 10) := by
  have hrequest : sampleBody.intoRequest sampleCollection = .ok sampleRequest := rfl
  have hselect : selectProfile (fun _ _ => .ok (fastProfile 10)) sampleRequest =
      .ok (fastProfile 10) := rfl
  refine (mergeRespected_iff hrequest hselect (by decide)).mpr ⟨?_, fun _ => ?_⟩
  · exact ⟨fun _ => rfl, fun _ => rfl, nofun, nofun, fun _ => rfl, nofun, nofun⟩
  · exact ⟨nofun, nofun, fun _ h => absurd rfl h⟩

end Ketebe.Query
