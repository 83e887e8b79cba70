import Ketebe.Lib.Words
import Ketebe.McpFusion

/-!
Context for a model, assembled from fused hits within budgets of tokens, bytes and
documents. Each block shows the beginning of one hit's content.
-/
namespace Ketebe.Mcp

open Lib.Words

/-! ### Parameters and output -/

/-- The parameters that the assembly reads. -/
structure RetrieveContextParams where
  contentField : String
  maxTokens : ℕ
  maxBytes : ℕ
  maxDocuments : ℕ
  deriving DecidableEq, Repr

structure ContextBlock where
  citationId : String
  text : String
  tokenCount : ℕ
  byteCount : ℕ
  truncated : Bool
  deriving DecidableEq, Repr

structure ContextCitation (S : Type) where
  citationId : String
  collection : String
  recordId : AgentRecordId
  sourceUri : Option String
  documentId : Option String
  chunkId : Option String
  fusionRank : ℕ
  fusionScore : S
  provenance : List (FusionContribution S)

structure ContextBudgetUsage where
  tokenizer : String
  maxTokens : ℕ
  usedTokens : ℕ
  maxBytes : ℕ
  usedBytes : ℕ
  maxDocuments : ℕ
  usedDocuments : ℕ
  omittedHits : ℕ
  truncatedBlocks : ℕ
  deriving DecidableEq, Repr

structure RetrieveContextOutput (S : Type) where
  contextText : String
  blocks : List ContextBlock
  citations : List (ContextCitation S)
  budget : ContextBudgetUsage

/-! ### Metadata -/

/-- The text of a number, given that of a float. -/
def JsonNumber.text (floatText : F64 → String) : JsonNumber → String
  | .posInt value => Nat.repr value.toNat
  | .negInt value _ => "-" ++ Nat.repr value.toInt.natAbs
  | .float value _ => floatText value

/-- Only objects have fields. -/
def getSegment : JsonValue → String → Option JsonValue
  | .object fields, segment => fields.lookup segment
  | _, _ => none

def metadataString (floatText : F64 → String) (metadata : JsonValue) (path : String) :
    Option String := do
  let current ← (path.toList.splitOn '.').foldlM (fun current segment =>
    getSegment current (String.ofList segment)) metadata
  match current with
  | .string value => some value
  | .number value => some (JsonNumber.text floatText value)
  | _ => none

/-! ### Truncation -/

/-- `str::trim_end`. -/
def trimEnd (value : String) : String := String.ofList (value.toList.rdropWhile isWhitespace)

/-- The slice up to a byte; nothing where that is inside a character. -/
def slice (text : String) (stop : ℕ) : Option String :=
  (sliceTo Char.utf8Size stop text.toList).map String.ofList

/-- The loop over the characters from a byte on: where it stops, and the tokens begun by
then. -/
def truncateLoop (maxTokens maxBytes stop tokens : ℕ) (inToken : Bool) : List Char → ℕ × ℕ
  | [] => (stop, tokens)
  | character :: rest =>
      let characterEnd := stop + character.utf8Size
      if maxBytes < characterEnd then (stop, tokens)
      else
        let whitespace := isWhitespace character
        if !whitespace && !inToken then
          if maxTokens ≤ tokens then (stop, tokens)
          else truncateLoop maxTokens maxBytes characterEnd (tokens + 1) (!whitespace) rest
        else truncateLoop maxTokens maxBytes characterEnd tokens (!whitespace) rest

def truncateText (text : String) (maxTokens maxBytes : ℕ) : Option (String × ℕ × Bool) := do
  let (stop, tokens) := truncateLoop maxTokens maxBytes 0 0 false text.toList
  let truncated := stop < text.utf8ByteSize
  let kept ← slice text stop
  some (trimEnd kept, tokens, truncated)

/-! ### Assembly -/

structure ContextState (S : Type) where
  blocks : List ContextBlock
  citations : List (ContextCitation S)
  documents : Finset String
  usedTokens : ℕ
  usedBytes : ℕ
  omittedHits : ℕ
  truncatedBlocks : ℕ

def ContextState.start {S : Type} : ContextState S := ⟨[], [], ∅, 0, 0, 0, 0⟩

def ContextState.omitHit {S : Type} (state : ContextState S) : ContextState S :=
  { state with omittedHits := state.omittedHits + 1 }

section Assemble

variable {S : Type} (floatText : F64 → String) (params : RetrieveContextParams)

def hitString (hit : FusedSearchHit S) (path : String) : Option String :=
  hit.representative.metadata.bind fun metadata => metadataString floatText metadata path

/-- The content of a hit, if there is any. -/
def hitContent (hit : FusedSearchHit S) : Option String :=
  (hitString floatText hit params.contentField).filter (· ≠ "")

def hitCollection (hit : FusedSearchHit S) : String :=
  (hit.provenance.head?.map (·.sourceCollection)).getD ""

/-- A document is told by its id alone, a hit without one by its collection and record. -/
def documentKey (hit : FusedSearchHit S) : String :=
  (hitString floatText hit "document_id").getD (hitCollection hit ++ ":" ++ recordKey hit.id)

def ContextState.cite (state : ContextState S) (hit : FusedSearchHit S) (text : String)
    (tokenCount : ℕ) (truncated : Bool) : ContextState S :=
  let citationId := "ctx-" ++ Nat.repr (state.blocks.length + 1)
  { state with
    documents := insert (documentKey floatText hit) state.documents
    usedTokens := state.usedTokens + tokenCount
    usedBytes := state.usedBytes + text.utf8ByteSize
    truncatedBlocks := if truncated then state.truncatedBlocks + 1 else state.truncatedBlocks
    blocks := state.blocks ++ [⟨citationId, text, tokenCount, text.utf8ByteSize, truncated⟩]
    citations := state.citations ++ [{
      citationId
      collection := hitCollection hit
      recordId := hit.id
      sourceUri := hitString floatText hit "source_uri"
      documentId := hitString floatText hit "document_id"
      chunkId := hitString floatText hit "chunk_id"
      fusionRank := hit.fusionRank
      fusionScore := hit.fusionScore
      provenance := hit.provenance }] }

/-- One round of the loop over the hits. -/
def assembleHit (state : ContextState S) (hit : FusedSearchHit S) : Option (ContextState S) :=
  match hitContent floatText params hit with
  | none => some state.omitHit
  | some content =>
      if documentKey floatText hit ∉ state.documents ∧
          params.maxDocuments ≤ state.documents.card then some state.omitHit
      else
        let remainingTokens := params.maxTokens - state.usedTokens
        let remainingBytes := params.maxBytes - state.usedBytes
        if remainingTokens = 0 ∨ remainingBytes = 0 then some state.omitHit
        else do
          let (text, tokenCount, truncated) ← truncateText content remainingTokens remainingBytes
          if text = "" then some state.omitHit
          else some (state.cite floatText hit text tokenCount truncated)

def blockText (block : ContextBlock) : String := "[" ++ block.citationId ++ "]\n" ++ block.text

def assembleContext (result : FusedSearchOutput S) : Option (RetrieveContextOutput S) := do
  let state ← result.hits.foldlM (assembleHit floatText params) ContextState.start
  some {
    contextText := String.intercalate "\n\n" (state.blocks.map blockText)
    blocks := state.blocks
    citations := state.citations
    budget := {
      tokenizer := "unicode_whitespace_v0"
      maxTokens := params.maxTokens
      usedTokens := state.usedTokens
      maxBytes := params.maxBytes
      usedBytes := state.usedBytes
      maxDocuments := params.maxDocuments
      usedDocuments := state.documents.card
      omittedHits := state.omittedHits
      truncatedBlocks := state.truncatedBlocks } }

end Assemble

/-! ### What a truncated text is -/

theorem utf8ByteSize_ofList (characters : List Char) :
    (String.ofList characters).utf8ByteSize = (characters.map Char.utf8Size).sum := by
  induction characters with
  | nil => rfl
  | cons character rest ih =>
    rw [List.map_cons, List.sum_cons, ← ih, String.ofList_cons, String.utf8ByteSize_append,
      String.utf8ByteSize_singleton]

theorem utf8ByteSize_eq (text : String) :
    text.utf8ByteSize = (text.toList.map Char.utf8Size).sum := by
  rw [← utf8ByteSize_ofList, String.ofList_toList]

/-- The loop stops at the end of some of the characters, within both budgets, with the tokens
that these begin. -/
def StopsWithin (maxTokens maxBytes stop tokens : ℕ) (inToken : Bool) (characters : List Char)
    (result : ℕ × ℕ) : Prop :=
  ∃ taken rest : List Char, characters = taken ++ rest ∧
    result = (stop + (taken.map Char.utf8Size).sum,
      tokens + countFrom isWhitespace inToken taken) ∧
    result.1 ≤ maxBytes ∧ result.2 ≤ maxTokens

theorem StopsWithin.next {maxTokens maxBytes stop tokens : ℕ} {inToken : Bool} {character : Char}
    {rest : List Char} {result : ℕ × ℕ}
    (h : StopsWithin maxTokens maxBytes (stop + character.utf8Size)
      (tokens + if !isWhitespace character && !inToken then 1 else 0) (!isWhitespace character)
      rest result) :
    StopsWithin maxTokens maxBytes stop tokens inToken (character :: rest) result := by
  obtain ⟨taken, others, rfl, hresult, hfits, hcount⟩ := h
  refine ⟨character :: taken, others, rfl, ?_, hfits, hcount⟩
  rw [hresult, List.map_cons, List.sum_cons, countFrom, Nat.add_assoc, Nat.add_assoc]

theorem truncateLoop_stops {maxTokens maxBytes stop tokens : ℕ} (inToken : Bool)
    (hstop : stop ≤ maxBytes) (htokens : tokens ≤ maxTokens) (characters : List Char) :
    StopsWithin maxTokens maxBytes stop tokens inToken characters
      (truncateLoop maxTokens maxBytes stop tokens inToken characters) := by
  induction characters generalizing stop tokens inToken with
  | nil => exact ⟨[], [], rfl, rfl, hstop, htokens⟩
  | cons character rest ih =>
    have hhere : StopsWithin maxTokens maxBytes stop tokens inToken (character :: rest)
        (stop, tokens) := ⟨[], character :: rest, rfl, rfl, hstop, htokens⟩
    rw [truncateLoop]
    by_cases hbytes : maxBytes < stop + character.utf8Size
    · rw [if_pos hbytes]
      exact hhere
    · rw [if_neg hbytes]
      have hnext := Nat.le_of_not_lt hbytes
      by_cases hbegins : (!isWhitespace character && !inToken) = true
      · rw [if_pos hbegins]
        by_cases hspent : maxTokens ≤ tokens
        · rw [if_pos hspent]
          exact hhere
        · rw [if_neg hspent]
          apply StopsWithin.next
          rw [if_pos hbegins]
          exact ih _ hnext (Nat.lt_of_not_le hspent)
      · rw [if_neg hbegins]
        apply StopsWithin.next
        rw [if_neg hbegins]
        exact ih _ hnext htokens

/-- The tokens of a text between white space. -/
def tokenCount (text : String) : ℕ := (words isWhitespace text.toList).length

/-- A beginning of the content without white space at its end, and what was said of it. -/
structure Truncates (content text : String) (tokens : ℕ) (truncated : Bool) : Prop where
  cut : ∃ cut : List Char, content.toList = text.toList ++ cut ∧
    (¬(∀ character ∈ cut, isWhitespace character) → truncated)
  trimmed : text.toList.rdropWhile isWhitespace = text.toList
  tokens : tokens = tokenCount text

theorem truncateText_spec (content : String) (maxTokens maxBytes : ℕ) :
    ∃ text tokens truncated,
      truncateText content maxTokens maxBytes = some (text, tokens, truncated) ∧
      Truncates content text tokens truncated ∧ tokens ≤ maxTokens ∧
      text.utf8ByteSize ≤ maxBytes := by
  obtain ⟨taken, rest, hcontent, hresult, hfits, hcount⟩ :=
    truncateLoop_stops false (Nat.zero_le maxBytes) (Nat.zero_le maxTokens) content.toList
  rw [Nat.zero_add, Nat.zero_add] at hresult
  have hslice : slice content (taken.map Char.utf8Size).sum = some (String.ofList taken) := by
    rw [slice, hcontent, sliceTo_sum _ Char.utf8Size_pos]
    rfl
  have htaken : taken.rdropWhile isWhitespace ++ taken.rtakeWhile isWhitespace = taken :=
    List.rdropWhile_append_rtakeWhile ..
  have hblank : ∀ character ∈ taken.rtakeWhile isWhitespace, isWhitespace character := fun _ =>
    List.mem_rtakeWhile_imp
  have htext : trimEnd (String.ofList taken) =
      String.ofList (taken.rdropWhile isWhitespace) := by
    rw [trimEnd, String.toList_ofList]
  rw [hresult] at hfits hcount
  have htruncated : truncateText content maxTokens maxBytes =
      some (String.ofList (taken.rdropWhile isWhitespace), countFrom isWhitespace false taken,
        decide ((taken.map Char.utf8Size).sum < content.utf8ByteSize)) := by
    simp only [truncateText, hresult, hslice, Option.bind_eq_bind, Option.bind_some, htext]
  refine ⟨_, _, _, htruncated, ⟨⟨taken.rtakeWhile isWhitespace ++ rest, ?_, ?_⟩, ?_, ?_⟩, hcount,
    ?_⟩
  · rw [String.toList_ofList, ← List.append_assoc, htaken, hcontent]
  · intro hcut
    rw [decide_eq_true_eq, utf8ByteSize_eq, hcontent, List.map_append, List.sum_append]
    refine Nat.lt_add_of_pos_right (Nat.pos_of_ne_zero fun hnone => hcut fun character hmem => ?_)
    obtain hmem | hmem := List.mem_append.mp hmem
    · exact hblank character hmem
    · have hsize := List.sum_eq_zero_iff.mp hnone _ (List.mem_map_of_mem hmem)
      exact absurd hsize character.utf8Size_pos.ne'
  · rw [String.toList_ofList, List.rdropWhile_idempotent]
  · rw [tokenCount, String.toList_ofList, ← countFrom_eq]
    conv_lhs => rw [← htaken]
    exact countFrom_append_blank hblank
  · rw [utf8ByteSize_ofList]
    refine le_trans ?_ hfits
    conv_rhs => rw [← htaken]
    rw [List.map_append, List.sum_append]
    exact Nat.le_add_right _ _

/-! ### Within the budgets -/

section Budget

variable {S : Type} (floatText : F64 → String) (params : RetrieveContextParams)

/-- The block shows the beginning of the hit's content. -/
structure Shows (hit : FusedSearchHit S) (block : ContextBlock) : Prop where
  truncates : ∃ content, hitContent floatText params hit = some content ∧
    Truncates content block.text block.tokenCount block.truncated
  byteCount : block.byteCount = block.text.utf8ByteSize

/-- What is known after some of the hits. -/
structure Assembled (seen : List (FusedSearchHit S)) (state : ContextState S) : Prop where
  kept : ∃ kept : List (FusedSearchHit S), kept.Sublist seen ∧
    List.Forall₂ (Shows floatText params) kept state.blocks ∧
    kept.length + state.omittedHits = seen.length ∧
    state.documents = (kept.map (documentKey floatText)).toFinset
  documents : state.documents.card ≤ params.maxDocuments
  usedTokens : (state.blocks.map (·.tokenCount)).sum = state.usedTokens
  usedBytes : (state.blocks.map (·.byteCount)).sum = state.usedBytes
  tokens : state.usedTokens ≤ params.maxTokens
  bytes : state.usedBytes ≤ params.maxBytes

variable {floatText params} {seen : List (FusedSearchHit S)} {state : ContextState S}
variable {hit : FusedSearchHit S}

theorem assembled_start :
    Assembled floatText params [] (ContextState.start : ContextState S) where
  kept := ⟨[], List.Sublist.slnil, .nil, rfl, rfl⟩
  documents := Nat.zero_le _
  usedTokens := rfl
  usedBytes := rfl
  tokens := Nat.zero_le _
  bytes := Nat.zero_le _

theorem Assembled.omitHit (h : Assembled floatText params seen state) :
    Assembled floatText params (seen ++ [hit]) state.omitHit := by
  obtain ⟨kept, hkept, hshows, hcount, hdocuments⟩ := h.kept
  refine { h with kept := ⟨kept, hkept.trans (List.sublist_append_left ..), hshows, ?_, hdocuments⟩ }
  rw [List.length_append, List.length_singleton, ← hcount]
  rfl

theorem Assembled.cite (h : Assembled floatText params seen state) {content text : String}
    {tokens : ℕ} {truncated : Bool} (hcontent : hitContent floatText params hit = some content)
    (htruncates : Truncates content text tokens truncated)
    (hdocument : ¬(documentKey floatText hit ∉ state.documents ∧
      params.maxDocuments ≤ state.documents.card))
    (htokens : tokens ≤ params.maxTokens - state.usedTokens)
    (hbytes : text.utf8ByteSize ≤ params.maxBytes - state.usedBytes) :
    Assembled floatText params (seen ++ [hit])
      (state.cite floatText hit text tokens truncated) := by
  obtain ⟨kept, hkept, hshows, hcount, hdocuments⟩ := h.kept
  have htokensUsed := h.tokens
  have hbytesUsed := h.bytes
  refine ⟨⟨kept ++ [hit], hkept.append_right [hit], ?_, ?_, ?_⟩, ?_, ?_, ?_, ?_, ?_⟩
  · exact List.rel_append hshows (.cons ⟨⟨content, hcontent, htruncates⟩, rfl⟩ .nil)
  · simp only [ContextState.cite, List.length_append, List.length_singleton]
    omega
  · simp only [ContextState.cite, hdocuments, List.map_append, List.map_singleton,
      List.toFinset_append, List.toFinset_cons, List.toFinset_nil]
    rw [Finset.union_insert, Finset.union_empty]
  · by_cases hknown : documentKey floatText hit ∈ state.documents
    · simp only [ContextState.cite, Finset.insert_eq_of_mem hknown]
      exact h.documents
    · have hroom : state.documents.card < params.maxDocuments :=
        Nat.lt_of_not_le fun hfull => hdocument ⟨hknown, hfull⟩
      exact (Finset.card_insert_le ..).trans hroom
  · simp only [ContextState.cite, List.map_append, List.sum_append, h.usedTokens,
      List.map_singleton, List.sum_singleton]
  · simp only [ContextState.cite, List.map_append, List.sum_append, h.usedBytes,
      List.map_singleton, List.sum_singleton]
  · simp only [ContextState.cite]
    omega
  · simp only [ContextState.cite]
    omega

theorem Assembled.next (h : Assembled floatText params seen state) (hit : FusedSearchHit S) :
    ∃ next, assembleHit floatText params state hit = some next ∧
      Assembled floatText params (seen ++ [hit]) next := by
  unfold assembleHit
  cases hcontent : hitContent floatText params hit with
  | none => exact ⟨_, rfl, h.omitHit⟩
  | some content =>
    dsimp only
    split
    · exact ⟨_, rfl, h.omitHit⟩
    · rename_i hdocument
      split
      · exact ⟨_, rfl, h.omitHit⟩
      · obtain ⟨text, tokens, truncated, htruncate, htruncates, htokens, hbytes⟩ :=
          truncateText_spec content (params.maxTokens - state.usedTokens)
            (params.maxBytes - state.usedBytes)
        rw [htruncate, Option.bind_eq_bind, Option.bind_some]
        dsimp only
        split
        · exact ⟨_, rfl, h.omitHit⟩
        · exact ⟨_, rfl, h.cite hcontent htruncates hdocument htokens hbytes⟩

/-- By induction on the hits still to come. -/
theorem Assembled.run (h : Assembled floatText params seen state)
    (hits : List (FusedSearchHit S)) :
    ∃ final, hits.foldlM (assembleHit floatText params) state = some final ∧
      Assembled floatText params (seen ++ hits) final := by
  induction hits generalizing seen state with
  | nil => exact ⟨state, rfl, by rwa [List.append_nil]⟩
  | cons hit rest ih =>
    obtain ⟨next, hnext, hassembled⟩ := h.next hit
    obtain ⟨final, hfinal, hall⟩ := ih hassembled
    refine ⟨final, ?_, by rwa [List.append_assoc, List.singleton_append] at hall⟩
    rw [List.foldlM_cons, hnext]
    exact hfinal

variable (floatText params)

/-- The context shows some of the hits, in order, within the budgets. Its text puts each block
under a line with its citation; these lines are in no budget. -/
structure WithinBudget (hits : List (FusedSearchHit S)) (output : RetrieveContextOutput S) :
    Prop where
  kept : ∃ kept : List (FusedSearchHit S), kept.Sublist hits ∧
    List.Forall₂ (Shows floatText params) kept output.blocks ∧
    (kept.map (documentKey floatText)).toFinset.card ≤ params.maxDocuments
  omittedHits : output.blocks.length + output.budget.omittedHits = hits.length
  tokens : (output.blocks.map (·.tokenCount)).sum ≤ params.maxTokens
  bytes : (output.blocks.map (·.byteCount)).sum ≤ params.maxBytes
  contextText : output.contextText = String.intercalate "\n\n" (output.blocks.map blockText)

/-- A context is always assembled, without a cut inside a character. -/
theorem assembleContext_within (result : FusedSearchOutput S) :
    ∃ output, assembleContext floatText params result = some output ∧
      WithinBudget floatText params result.hits output := by
  have hstart : Assembled floatText params [] (ContextState.start : ContextState S) :=
    assembled_start
  obtain ⟨final, hfinal, h⟩ := hstart.run result.hits
  obtain ⟨kept, hkept, hshows, hcount, hdocuments⟩ := h.kept
  refine ⟨_, by rw [assembleContext, hfinal]; rfl, ⟨kept, hkept, hshows, ?_⟩, ?_, ?_, ?_, rfl⟩
  · rw [← hdocuments]
    exact h.documents
  · rw [← hshows.length_eq]
    exact hcount
  · exact h.usedTokens.trans_le h.tokens
  · exact h.usedBytes.trans_le h.bytes

end Budget

/-! ### What the budgets leave out -/

/-- A hit of one collection with a content and the id of a document. -/
def documentHit (collection content : String) : FusedSearchHit ℚ where
  fusionRank := 1
  fusionScore := 1
  id := .string collection
  representative := ⟨.string collection, ⟨0⟩, 1, none, some (.object
    [("content", .string content), ("document_id", .string "guide")]), none, none, none, none,
    none, none⟩
  provenance := [⟨collection, 1, ⟨0⟩, none, none, 1⟩]

/-- Two documents with one id count once, and the lines with citations do not count. -/
theorem not_within_citations : ∃ output,
    assembleContext (fun _ => "") ⟨"content", 10, 2, 1⟩
      (⟨.rrf, .recordId, [], [documentHit "docs" "x", documentHit "notes" "y"]⟩ :
        FusedSearchOutput ℚ) = some output ∧
    2 < output.contextText.utf8ByteSize ∧
    1 < (output.citations.map fun citation =>
      (citation.collection, citation.documentId)).toFinset.card := by
  refine ⟨_, rfl, ?_, ?_⟩
  · decide
  · decide

end Ketebe.Mcp
