import Ketebe.Search

/-!
Lexical search. An index holds the visible records, the postings of every term in
document order and the average document length; hits are scored by BM25. The
Unicode tables and the rounding of 32-bit floats are parameters.
-/
namespace Ketebe

open Lib.ByteCodec Lib.SortedSet

/-- The tables behind `char::is_alphanumeric` and `char::to_lowercase`. -/
class Unicode where
  isAlphanumeric : Char → Bool
  toLowercase : Char → List Char

/-- Arithmetic of 32-bit floats. The floats from zero on that are finite have the
bit patterns below that of the infinity. -/
class LexicalArith where
  ofNat : ℕ → F32
  add : F32 → F32 → F32
  sub : F32 → F32 → F32
  mul : F32 → F32 → F32
  div : F32 → F32 → F32
  ln : F32 → F32
  ofNat_lt : ∀ {value : ℕ}, value < 256 ^ 8 → (ofNat value).bits < 0x7f800000
  one_le_ofNat : ∀ {value : ℕ}, 0 < value → value < 256 ^ 8 → 0x3f800000 ≤ (ofNat value).bits
  div_lt : ∀ {left right : F32}, left.bits < 0x7f800000 → 0x3f800000 ≤ right.bits →
    right.bits < 0x7f800000 → (div left right).bits < 0x7f800000

namespace F32

def zero : F32 := ⟨0⟩

def half : F32 := ⟨0x3f000000⟩

def one : F32 := ⟨0x3f800000⟩

/-- The comparison `> 0.0`. -/
def isPositive (value : F32) : Bool := 0 < value.bits && value.bits ≤ 0x7f800000

/-- The comparison `< 0.0`. -/
def isNegative (value : F32) : Bool := 0x80000000 < value.bits && value.bits ≤ 0xff800000

/-- An integer in the order of `total_cmp`. -/
def totalKey (value : F32) : ℤ :=
  if value.bits < 0x80000000 then value.bits.toNat else 0x7fffffff - (value.bits.toNat : ℤ)

def totalCmp (left right : F32) : Ordering := compare left.totalKey right.totalKey

end F32

inductive LexicalIndexError where
  | io (error : String)
  | invalidMagic
  | unsupportedVersion (version : UInt8)
  | checksumMismatch
  | corrupt (message : String)
  | domain (message : String)
  | emptyFields
  | emptyQuery
  | invalidTopK
  | predicate (message : String)
  | control (error : QueryControlError)
  deriving DecidableEq, Repr

def defaultBm25K1 : F32 := ⟨0x3f99999a⟩

def defaultBm25B : F32 := ⟨0x3f400000⟩

/-! ### Tokens -/

section Tokens

variable [Unicode] (analyzer : LexicalAnalyzerConfig)

/-- The loop of `analyze` with the token read so far. -/
def analyzeFrom : List Char → List Char → List String
  | token, [] => if token = [] then [] else [String.ofList token]
  | token, character :: rest =>
      if Unicode.isAlphanumeric character then
        analyzeFrom (token ++
          if analyzer.lowercase then Unicode.toLowercase character else [character]) rest
      else if token = [] then analyzeFrom [] rest
      else String.ofList token :: analyzeFrom [] rest

def analyze (text : String) : List String := analyzeFrom analyzer [] text.toList

/-- The tokens of the lexical fields of a record. -/
def recordTokens (fields : List FieldPath) (record : Record) : List String :=
  fields.flatMap fun field =>
    match field.resolve record.metadata with
    | some (.string value) => analyze analyzer value
    | _ => []

end Tokens

/-! ### Building -/

structure IndexedDocument where
  record : Record
  length : UInt32

structure Posting where
  document : UInt32
  termFrequency : UInt32
  deriving DecidableEq

abbrev Postings := Std.ExtTreeMap String (List Posting) compare

abbrev Frequencies := Std.ExtTreeMap String UInt32 compare

structure LexicalIndex where
  collectionId : CollectionId
  fields : List FieldPath
  sourceFingerprint : UInt64
  analyzer : LexicalAnalyzerConfig
  documents : List IndexedDocument
  postings : Postings
  averageLength : F32

namespace LexicalIndex

/-- `u32::try_from`. -/
def tryU32 (message : String) (value : ℕ) : Except LexicalIndexError UInt32 :=
  if value < 256 ^ 4 then .ok (UInt32.ofNat value) else .error (.corrupt message)

def countToken (frequencies : Frequencies) (token : String) :
    Except LexicalIndexError Frequencies :=
  let frequency := (frequencies[token]?).getD 0
  if frequency = 0xffffffff then .error (.corrupt "term frequency overflow")
  else .ok (frequencies.insert token (frequency + 1))

def pushPosting (document : UInt32) (postings : Postings) (entry : String × UInt32) : Postings :=
  postings.insert entry.1 ((postings[entry.1]?).getD [] ++ [⟨document, entry.2⟩])

/-- The loop state of `build`. -/
structure Draft where
  documents : List IndexedDocument
  postings : Postings
  totalLength : ℕ

def Draft.empty : Draft := ⟨[], ∅, 0⟩

variable [Unicode] [LexicalArith]

def addRecord (fields : List FieldPath) (analyzer : LexicalAnalyzerConfig) (draft : Draft)
    (record : Record) : Except LexicalIndexError Draft := do
  let tokens := recordTokens analyzer fields record
  let length ← tryU32 "document token count exceeds u32" tokens.length
  let document ← tryU32 "document count exceeds u32" draft.documents.length
  let frequencies ← tokens.foldlM countToken ∅
  pure {
    documents := draft.documents ++ [⟨record, length⟩]
    postings := frequencies.toList.foldl (pushPosting document) draft.postings
    totalLength := min (draft.totalLength + length.toNat) (256 ^ 8 - 1) }

def averageOf (draft : Draft) : F32 :=
  if draft.documents = [] then .zero
  else LexicalArith.div (LexicalArith.ofNat draft.totalLength)
    (LexicalArith.ofNat draft.documents.length)

def build (segments : List Segment) (collectionId : CollectionId) (fields : List FieldPath)
    (analyzer : LexicalAnalyzerConfig) (sourceFingerprint : UInt64) :
    Except LexicalIndexError LexicalIndex :=
  if fields = [] then .error .emptyFields
  else do
    let draft ← (visibleRecords segments collectionId).foldlM (addRecord fields analyzer) .empty
    pure {
      collectionId := collectionId
      fields := fields
      sourceFingerprint := sourceFingerprint
      analyzer := analyzer
      documents := draft.documents
      postings := draft.postings
      averageLength := averageOf draft }

end LexicalIndex

/-! ### What a build holds -/

/-- Postings of documents below the count, in their order and with their frequencies. -/
structure PostingsValid (count : ℕ) (postings : Postings) : Prop where
  posting : ∀ (term : String) (list : List Posting), postings[term]? = some list →
    ∀ posting ∈ list, posting.termFrequency ≠ 0 ∧ posting.document.toNat < count
  ordered : ∀ (term : String) (list : List Posting), postings[term]? = some list →
    list.Pairwise fun first second => first.document < second.document

theorem postingsValid_empty (count : ℕ) : PostingsValid count ∅ := by
  constructor
  all_goals
    intro term list h
    rw [Std.ExtTreeMap.getElem?_empty] at h
    cases h

theorem PostingsValid.mono {count count' : ℕ} {postings : Postings}
    (h : PostingsValid count postings) (hle : count ≤ count') : PostingsValid count' postings := by
  refine ⟨fun term list hlist posting hposting => ?_, h.ordered⟩
  obtain ⟨hfrequency, hlt⟩ := h.posting term list hlist posting hposting
  exact ⟨hfrequency, hlt.trans_le hle⟩

theorem add_one_ne_zero {frequency : UInt32} (h : frequency ≠ 0xffffffff) : frequency + 1 ≠ 0 := by
  intro heq
  have hone : (1 : UInt32).toNat = 1 := rfl
  have hzero : (0 : UInt32).toNat = 0 := rfl
  have hsum := congrArg UInt32.toNat heq
  rw [UInt32.toNat_add, hone, hzero] at hsum
  have hlt := frequency.toNat_lt
  exact h (UInt32.toNat_inj.mp (show frequency.toNat = 0xffffffff by omega))

namespace LexicalIndex

theorem tryU32_ok {message : String} {value : ℕ} {result : UInt32}
    (h : tryU32 message value = .ok result) : value < 256 ^ 4 ∧ result.toNat = value := by
  unfold tryU32 at h
  split at h
  · rename_i hlt
    cases h
    refine ⟨hlt, ?_⟩
    rw [UInt32.toNat_ofNat']
    exact Nat.mod_eq_of_lt hlt
  · cases h

/-- A counted token has been seen. -/
theorem countTokens_ne_zero {tokens : List String} {frequencies : Frequencies}
    (h : tokens.foldlM countToken ∅ = .ok frequencies) :
    ∀ (term : String) (frequency : UInt32), frequencies[term]? = some frequency →
      frequency ≠ 0 := by
  have hkeeps : ∀ token ∈ tokens, ∀ state next : Frequencies,
      (∀ (term : String) (frequency : UInt32), state[term]? = some frequency → frequency ≠ 0) →
      countToken state token = .ok next →
      ∀ (term : String) (frequency : UInt32), next[term]? = some frequency → frequency ≠ 0 := by
    intro token _ state next hstate hnext
    unfold countToken at hnext
    dsimp only at hnext
    split at hnext
    · cases hnext
    · rename_i hmax
      cases hnext
      intro term frequency hfrequency
      rw [Std.ExtTreeMap.getElem?_insert] at hfrequency
      split at hfrequency
      · cases hfrequency
        exact add_one_ne_zero hmax
      · exact hstate term frequency hfrequency
  refine except_foldlM_keeps hkeeps (fun term frequency hfrequency => ?_) h
  rw [Std.ExtTreeMap.getElem?_empty] at hfrequency
  cases hfrequency

/-- The postings of a new document go to the end of the lists of its terms. -/
theorem foldl_pushPosting_valid {count : ℕ} {document : UInt32} (hdocument : document.toNat = count)
    {entries : List (String × UInt32)}
    (hdistinct : entries.Pairwise fun first second => first.1 ≠ second.1)
    (hfrequency : ∀ entry ∈ entries, entry.2 ≠ 0) {postings : Postings}
    (hvalid : PostingsValid (count + 1) postings)
    (hbefore : ∀ entry ∈ entries, ∀ list, postings[entry.1]? = some list →
      ∀ posting ∈ list, posting.document.toNat < count) :
    PostingsValid (count + 1) (entries.foldl (pushPosting document) postings) := by
  induction entries generalizing postings with
  | nil => exact hvalid
  | cons entry rest ih =>
    obtain ⟨hfirst, hrest⟩ := List.pairwise_cons.mp hdistinct
    have hold : ∀ posting ∈ (postings[entry.1]?).getD [], posting.termFrequency ≠ 0 ∧
        posting.document.toNat < count := by
      intro posting hposting
      cases hlist : postings[entry.1]? with
      | none =>
        rw [hlist] at hposting
        cases hposting
      | some list =>
        rw [hlist] at hposting
        exact ⟨(hvalid.posting _ list hlist posting hposting).1,
          hbefore entry (List.mem_cons_self ..) list hlist posting hposting⟩
    have hsorted : ((postings[entry.1]?).getD []).Pairwise fun first second =>
        first.document < second.document := by
      cases hlist : postings[entry.1]? with
      | none => exact .nil
      | some list => exact hvalid.ordered _ list hlist
    refine ih hrest (fun other hother => hfrequency other (List.mem_cons_of_mem _ hother))
      ⟨fun term list hlist => ?_, fun term list hlist => ?_⟩ fun other hother list hlist => ?_
    · rw [pushPosting, Std.ExtTreeMap.getElem?_insert] at hlist
      split at hlist
      · cases hlist
        intro posting hposting
        rcases List.mem_append.mp hposting with hearlier | hnew
        · exact ⟨(hold posting hearlier).1, Nat.lt_succ_of_lt (hold posting hearlier).2⟩
        · rw [List.mem_singleton.mp hnew]
          exact ⟨hfrequency entry (List.mem_cons_self ..), by rw [hdocument]; exact Nat.lt_succ_self _⟩
      · exact hvalid.posting term list hlist
    · rw [pushPosting, Std.ExtTreeMap.getElem?_insert] at hlist
      split at hlist
      · cases hlist
        refine List.pairwise_append.mpr ⟨hsorted, List.pairwise_singleton .., ?_⟩
        intro first hmem second hsecond
        rw [List.mem_singleton.mp hsecond, UInt32.lt_iff_toNat_lt, hdocument]
        exact (hold first hmem).2
      · exact hvalid.ordered term list hlist
    · rw [pushPosting, Std.ExtTreeMap.getElem?_insert, if_neg] at hlist
      · exact hbefore other (List.mem_cons_of_mem _ hother) list hlist
      · exact fun hsame => hfirst other hother (Std.LawfulEqOrd.eq_of_compare hsame)

/-- What the loop of `build` keeps. -/
structure Draft.Valid (draft : Draft) (records : List Record) : Prop where
  records : draft.documents.map IndexedDocument.record = records
  postings : PostingsValid draft.documents.length draft.postings
  count : draft.documents.length ≤ 256 ^ 4
  total : draft.totalLength < 256 ^ 8

theorem Draft.empty_valid : Draft.empty.Valid [] :=
  ⟨rfl, postingsValid_empty 0, Nat.zero_le _, by decide⟩

/-- The average is finite and not negative, so it is a plain bit pattern below infinity. -/
theorem Draft.Valid.average_lt [LexicalArith] {draft : Draft} {records : List Record} (h : draft.Valid records) :
    (averageOf draft).bits < 0x7f800000 := by
  unfold averageOf
  split
  · decide
  · rename_i hdocuments
    have hpos := List.length_pos_of_ne_nil hdocuments
    have hcount : draft.documents.length < 256 ^ 8 := h.count.trans_lt (by decide)
    exact LexicalArith.div_lt (LexicalArith.ofNat_lt h.total)
      (LexicalArith.one_le_ofNat hpos hcount) (LexicalArith.ofNat_lt hcount)

variable [Unicode] {fields : List FieldPath} {analyzer : LexicalAnalyzerConfig}

theorem Draft.Valid.addRecord {draft next : Draft} {records : List Record} {record : Record}
    (h : draft.Valid records) (hnext : LexicalIndex.addRecord fields analyzer draft record = .ok next) :
    next.Valid (records ++ [record]) := by
  obtain ⟨length, -, hnext⟩ := except_bind_ok.mp hnext
  obtain ⟨document, hdocument, hnext⟩ := except_bind_ok.mp hnext
  obtain ⟨frequencies, hfrequencies, hnext⟩ := except_bind_ok.mp hnext
  cases hnext
  obtain ⟨hlt, hdocument⟩ := tryU32_ok hdocument
  have hlength (indexed : IndexedDocument) :
      (draft.documents ++ [indexed]).length = draft.documents.length + 1 := by
    rw [List.length_append, List.length_singleton]
  refine ⟨?_, ?_, ?_, ?_⟩
  · rw [List.map_append, h.records]
    rfl
  · dsimp only
    rw [hlength]
    have hdistinct : frequencies.toList.Pairwise fun first second => first.1 ≠ second.1 :=
      List.Pairwise.imp (fun {first second} (hne : ¬compare first.1 second.1 = .eq) heq =>
        hne (compare_eq_iff_eq.mpr heq)) Std.ExtTreeMap.distinct_keys_toList
    refine foldl_pushPosting_valid hdocument hdistinct ?_ (h.postings.mono (Nat.le_succ _)) ?_
    · intro entry hentry
      exact countTokens_ne_zero hfrequencies entry.1 entry.2
        (Std.ExtTreeMap.mem_toList_iff_getElem?_eq_some.mp hentry)
    · exact fun entry _ list hlist posting hposting =>
        (h.postings.posting entry.1 list hlist posting hposting).2
  · dsimp only
    rw [hlength]
    exact hlt
  · exact (Nat.min_le_right ..).trans_lt (by decide)

theorem Draft.Valid.addRecords {draft final : Draft} {earlier records : List Record}
    (h : draft.Valid earlier)
    (hfinal : records.foldlM (LexicalIndex.addRecord fields analyzer) draft = .ok final) :
    final.Valid (earlier ++ records) := by
  induction records generalizing draft earlier with
  | nil =>
    cases hfinal
    rwa [List.append_nil]
  | cons record rest ih =>
    rw [List.foldlM_cons] at hfinal
    obtain ⟨next, hnext, hfinal⟩ := except_bind_ok.mp hfinal
    have hrest := ih (h.addRecord hnext) hfinal
    rwa [List.append_assoc] at hrest

/-- An index as `build` makes it from these records. -/
structure Valid (index : LexicalIndex) (records : List Record) : Prop where
  records : index.documents.map IndexedDocument.record = records
  postings : PostingsValid index.documents.length index.postings
  average : index.averageLength.bits < 0x7f800000

theorem build_valid [LexicalArith] {segments : List Segment} {collectionId : CollectionId}
    {sourceFingerprint : UInt64} {index : LexicalIndex}
    (h : build segments collectionId fields analyzer sourceFingerprint = .ok index) :
    index.collectionId = collectionId ∧ index.fields = fields ∧ index.analyzer = analyzer ∧
      index.sourceFingerprint = sourceFingerprint ∧
      index.Valid (visibleRecords segments collectionId) := by
  unfold build at h
  split at h
  · cases h
  · obtain ⟨draft, hdraft, h⟩ := except_bind_ok.mp h
    cases h
    have hvalid := Draft.empty_valid.addRecords hdraft
    exact ⟨rfl, rfl, rfl, rfl, hvalid.records, hvalid.postings, hvalid.average_lt⟩

end LexicalIndex

/-! ### Searching -/

structure LexicalIndexHit where
  record : Record
  score : F32

namespace LexicalIndex

variable [Unicode] [LexicalArith]

abbrev Scores := Std.ExtTreeMap UInt32 F32 compare

def checkControl (control : QueryControl) : Except LexicalIndexError Unit :=
  control.check.mapError .control

open LexicalArith in
/-- What one posting adds to the score of its document. -/
def contribution (averageLength idf : F32) (document : IndexedDocument) (posting : Posting) : F32 :=
  let tf := ofNat posting.termFrequency.toNat
  let norm := if averageLength.isPositive then div (ofNat document.length.toNat) averageLength
    else F32.zero
  let denominator := add tf (mul defaultBm25K1
    (add (sub F32.one defaultBm25B) (mul defaultBm25B norm)))
  div (mul idf (mul tf (add defaultBm25K1 F32.one))) denominator

def scorePosting (index : LexicalIndex) (control : QueryControl) (idf : F32) (scores : Scores)
    (entry : Posting × ℕ) : Except LexicalIndexError Scores := do
  (Search.checkEvery 256 entry.2 control).mapError LexicalIndexError.control
  match index.documents[entry.1.document.toNat]? with
  | none => throw (.corrupt "posting references missing document")
  | some document =>
      pure (scores.insert entry.1.document
        (LexicalArith.add ((scores[entry.1.document]?).getD .zero)
          (contribution index.averageLength idf document entry.1)))

open LexicalArith in
def inverseDocumentFrequency (documentCount df : F32) : F32 :=
  ln (add F32.one (div (add (sub documentCount df) F32.half) (add df F32.half)))

def scoreTerm (index : LexicalIndex) (control : QueryControl) (scores : Scores) (term : String) :
    Except LexicalIndexError Scores := do
  checkControl control
  match index.postings[term]? with
  | none => pure scores
  | some postings =>
      let idf := inverseDocumentFrequency (LexicalArith.ofNat index.documents.length)
        (LexicalArith.ofNat postings.length)
      postings.zipIdx.foldlM (scorePosting index control idf) scores

/-- One iteration of the loop over the scores, which are in document order. -/
def collectHit (index : LexicalIndex) (control : QueryControl) (predicate : Option Predicate)
    (hits : List LexicalIndexHit) (entry : (UInt32 × F32) × ℕ) :
    Except LexicalIndexError (List LexicalIndexHit) := do
  (Search.checkEvery 256 entry.2 control).mapError LexicalIndexError.control
  match index.documents[entry.1.1.toNat]? with
  | none => throw (.corrupt "score references missing document")
  | some indexed =>
      let selected ← match predicate with
        | some predicate => (predicate.evaluate indexed.record.metadata).mapError fun error =>
            LexicalIndexError.predicate error.display
        | none => pure true
      pure (if selected && entry.1.2.isPositive then hits ++ [⟨indexed.record, entry.1.2⟩]
        else hits)

def compareHits (left right : LexicalIndexHit) : Ordering :=
  (right.score.totalCmp left.score).then (compare left.record.id right.record.id)

def searchWithControl (index : LexicalIndex) (text : String) (topK : ℕ)
    (predicate : Option Predicate) (control : QueryControl) :
    Except LexicalIndexError (List LexicalIndexHit) := do
  checkControl control
  let queryTerms := sortDedup (analyze index.analyzer text)
  if topK = 0 then throw .invalidTopK
  else if queryTerms = [] then throw .emptyQuery
  else if index.documents = [] then pure []
  else do
    let scores ← queryTerms.foldlM (scoreTerm index control) ∅
    let hits ← scores.toList.zipIdx.foldlM (collectHit index control predicate) []
    checkControl control
    pure ((hits.mergeSort fun left right => (compareHits left right).isLE).take topK)

def search (index : LexicalIndex) (text : String) (topK : ℕ) (predicate : Option Predicate) :
    Except LexicalIndexError (List LexicalIndexHit) :=
  index.searchWithControl text topK predicate .unbounded

end LexicalIndex

end Ketebe
