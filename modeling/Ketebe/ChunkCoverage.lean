import Ketebe.LexicalStore
import Ketebe.TokenChunking

/-!
What the chunkers return. Every slice lies on characters, the chunks cover the tokens of
the text, and a chunk may end where the previous one does: at a break that the overlap
steps back over and that no later break replaces.
-/
namespace Ketebe

open Lib.Occurrences Lib.SlidingWindows

/-! ### Coverage -/

/-- The chunk of a window over the tokens of a text. -/
structure IsChunk (text : List Char) (tokens : List TokenSpan) (window : (ℕ × ℕ) × ℕ)
    (chunk : StructuredChunk) : Prop where
  ordinal : chunk.ordinal = window.2
  tokenCount : chunk.tokenCount = window.1.2 - window.1.1
  startByte : ∃ hfirst : window.1.1 < tokens.length,
    chunk.startByte = tokens[window.1.1].startByte
  endByte : ∃ hlast : window.1.2 - 1 < tokens.length,
    chunk.endByte = tokens[window.1.2 - 1].endByte
  text : Holds text chunk.startByte chunk.text chunk.endByte

/-- The chunks of a text are those of windows that cover its tokens. -/
structure Covers [Unicode] (text : List Char) (policy : Policy) (windows : List (ℕ × ℕ))
    (chunks : List StructuredChunk) : Prop where
  aligned : List.Forall₂ (IsChunk text (spans text)) windows.zipIdx chunks
  covered : ∀ token ∈ spans text, ∃ chunk ∈ chunks,
    chunk.startByte ≤ token.startByte ∧ token.endByte ≤ chunk.endByte
  sizes : ∀ chunk ∈ chunks, 1 ≤ chunk.tokenCount ∧ chunk.tokenCount ≤ policy.size
  follows : windows.IsChain (Follows policy)

theorem InOrder.startByte_le {start i j : ℕ} {tokens : List TokenSpan} (h : InOrder start tokens)
    (hle : i ≤ j) (hj : j < tokens.length) : tokens[i].startByte ≤ tokens[j].startByte := by
  rcases hle.eq_or_lt with rfl | hlt
  · exact le_rfl
  · have hbehind := List.pairwise_iff_getElem.mp h.pairwise i j (hlt.trans hj) hj hlt
    have hnonempty := h.nonempty tokens[i] (List.getElem_mem _)
    omega

theorem InOrder.endByte_lt {start i j : ℕ} {tokens : List TokenSpan} (h : InOrder start tokens)
    (hlt : i < j) (hj : j < tokens.length) : tokens[i].endByte < tokens[j].endByte := by
  have hbehind := List.pairwise_iff_getElem.mp h.pairwise i j (hlt.trans hj) hj hlt
  have hnonempty := h.nonempty tokens[j] (List.getElem_mem _)
  omega

theorem InOrder.endByte_le {start i j : ℕ} {tokens : List TokenSpan} (h : InOrder start tokens)
    (hle : i ≤ j) (hj : j < tokens.length) : tokens[i].endByte ≤ tokens[j].endByte := by
  rcases hle.eq_or_lt with rfl | hlt
  · exact le_rfl
  · exact (h.endByte_lt hlt hj).le

theorem InOrder.endByte_lt_iff {start i j : ℕ} {tokens : List TokenSpan}
    (h : InOrder start tokens) (hi : i < tokens.length) (hj : j < tokens.length) :
    tokens[i].endByte < tokens[j].endByte ↔ i < j := by
  constructor
  · intro hbytes
    by_contra hle
    exact absurd (h.endByte_le (Nat.le_of_not_lt hle) hi) (Nat.not_le.mpr hbytes)
  · intro hlt
    exact h.endByte_lt hlt hj

/-- No slice of the loop panics. -/
theorem chunkOf_isChunk [Unicode] {text : List Char} {start stop : ℕ} (ordinal : ℕ)
    (hlt : start < stop) (hle : stop ≤ (spans text).length) :
    ∃ chunk, chunkOf text (spans text) ((start, stop), ordinal) = some chunk ∧
      IsChunk text (spans text) ((start, stop), ordinal) chunk := by
  have horder := spans_inOrder text
  have hlast : stop - 1 < (spans text).length := by omega
  have hfirst : start < (spans text).length := by omega
  obtain ⟨_, hfirstText⟩ := spans_onCharacters text (spans text)[start] (List.getElem_mem _)
  obtain ⟨_, hlastText⟩ := spans_onCharacters text (spans text)[stop - 1] (List.getElem_mem _)
  have hbytes : (spans text)[start].startByte ≤ (spans text)[stop - 1].endByte := by
    have hstarts := horder.startByte_le (by omega : start ≤ stop - 1) hlast
    have hnonempty := horder.nonempty (spans text)[stop - 1] (List.getElem_mem _)
    omega
  obtain ⟨body, hbody⟩ := hfirstText.enclose hlastText hbytes
  refine ⟨⟨ordinal, (spans text)[start].startByte, (spans text)[stop - 1].endByte, stop - start,
    body⟩, ?_, rfl, rfl, ⟨hfirst, rfl⟩, ⟨hlast, rfl⟩, hbody⟩
  rw [chunkOf, List.getElem?_eq_getElem hfirst, List.getElem?_eq_getElem hlast]
  simp only [Option.bind_eq_bind, Option.bind_some, hbody.slice_eq]
  rfl

theorem mapM_forall₂ {α β : Type} {f : α → Option β} {holds : α → β → Prop} {list : List α}
    (h : ∀ a ∈ list, ∃ b, f a = some b ∧ holds a b) :
    ∃ results, list.mapM f = some results ∧ List.Forall₂ holds list results := by
  induction list with
  | nil => exact ⟨[], rfl, List.Forall₂.nil⟩
  | cons a rest ih =>
    obtain ⟨b, hb, hholds⟩ := h a (List.mem_cons_self ..)
    obtain ⟨results, hresults, hrest⟩ := ih fun c hc => h c (List.mem_cons_of_mem _ hc)
    refine ⟨b :: results, ?_, List.Forall₂.cons hholds hrest⟩
    rw [List.mapM_cons, hb, hresults]
    rfl

theorem aligned_getElem {text : List Char} {tokens : List TokenSpan} {windows : List (ℕ × ℕ)}
    {chunks : List StructuredChunk}
    (h : List.Forall₂ (IsChunk text tokens) windows.zipIdx chunks) :
    chunks.length = windows.length ∧ ∀ i (hwindow : i < windows.length)
      (hchunk : i < chunks.length), IsChunk text tokens (windows[i], i) chunks[i] := by
  obtain ⟨hlength, hget⟩ := List.forall₂_iff_get.mp h
  rw [List.length_zipIdx] at hlength
  refine ⟨hlength.symm, fun i hwindow hchunk => ?_⟩
  have hchunk := hget i (by rwa [List.length_zipIdx]) hchunk
  rwa [List.get_eq_getElem, List.getElem_zipIdx, Nat.zero_add, List.get_eq_getElem] at hchunk

section Chunks

variable [Unicode] (text : List Char) (policy : Policy) (preferred : List ℕ)

theorem chunksOf_aligned : ∃ chunks, chunksOf text policy preferred = some chunks ∧
    List.Forall₂ (IsChunk text (spans text))
      (windows policy preferred (spans text).length).zipIdx chunks := by
  refine mapM_forall₂ fun window hwindow => ?_
  obtain ⟨⟨start, stop⟩, ordinal⟩ := window
  obtain ⟨hlt, _, hle⟩ := mem_windows (List.fst_mem_of_mem_zipIdx hwindow)
  exact chunkOf_isChunk ordinal hlt hle

theorem chunksOf_covers : ∃ windows chunks, chunksOf text policy preferred = some chunks ∧
    Covers text policy windows chunks := by
  obtain ⟨chunks, hchunks, haligned⟩ := chunksOf_aligned text policy preferred
  obtain ⟨hlength, hget⟩ := aligned_getElem haligned
  have horder := spans_inOrder text
  refine ⟨_, chunks, hchunks, haligned, fun token htoken => ?_, fun chunk hchunk => ?_,
    windows_follow policy preferred _⟩
  · obtain ⟨i, hi, rfl⟩ := List.getElem_of_mem htoken
    obtain ⟨window, hmem, hfrom, hto⟩ := windows_cover policy preferred hi
    obtain ⟨k, hk, rfl⟩ := List.getElem_of_mem hmem
    have h := hget k hk (by omega)
    obtain ⟨hfirst, hstart⟩ := h.startByte
    obtain ⟨hlast, hend⟩ := h.endByte
    refine ⟨chunks[k], List.getElem_mem _, ?_, ?_⟩
    · rw [hstart]
      exact horder.startByte_le hfrom hi
    · rw [hend]
      exact horder.endByte_le (Nat.le_sub_one_of_lt hto) hlast
  · obtain ⟨i, hi, rfl⟩ := List.getElem_of_mem hchunk
    have hwindow : i < (windows policy preferred (spans text).length).length := by omega
    have hsize := mem_windows (List.getElem_mem hwindow)
    have hcount := (hget i hwindow hi).tokenCount
    dsimp only at hcount
    omega

end Chunks

/-- Both chunkers return chunks that cover the text, for all texts, policies and scores. -/
theorem chunkers_cover [Unicode] [LexicalArith] (isFinalSigma : List Char → List Char → Bool)
    (text : List Char) :
    (∀ policy : TokenChunkingPolicy, ∃ windows chunks,
      chunkTextTokenAware isFinalSigma text policy = some chunks ∧
        Covers text policy.windows windows chunks) ∧
    ∀ (policy : SemanticChunkingPolicy) (scores : List (ℕ × F32)), ∃ windows chunks,
      chunksFromSimilarityScores text policy scores = some chunks ∧
        Covers text policy.windows windows chunks := by
  constructor
  · intro policy
    exact chunksOf_covers text policy.windows _
  · intro policy scores
    exact chunksOf_covers text policy.windows _

/-! ### Chunks inside the previous one -/

def EndsLater (first second : StructuredChunk) : Prop := first.endByte < second.endByte

section Ends

variable [Unicode] (text : List Char) (policy : Policy) (preferred : List ℕ)

theorem chunksOf_endsLater : (∃ chunks, chunksOf text policy preferred = some chunks ∧
    chunks.IsChain EndsLater) ↔ EndsIncrease (windows policy preferred (spans text).length) := by
  have horder := spans_inOrder text
  obtain ⟨chunks, hchunks, haligned⟩ := chunksOf_aligned text policy preferred
  obtain ⟨hlength, hget⟩ := aligned_getElem haligned
  have hends (i : ℕ) (hi : i + 1 < chunks.length) : EndsLater chunks[i] chunks[i + 1] ↔
      (windows policy preferred (spans text).length)[i].2 <
        (windows policy preferred (spans text).length)[i + 1].2 := by
    have hwindow := mem_windows (List.getElem_mem (by omega : i <
      (windows policy preferred (spans text).length).length))
    obtain ⟨hfirst, hfirstEnd⟩ := (hget i (by omega) (by omega)).endByte
    obtain ⟨hsecond, hsecondEnd⟩ := (hget (i + 1) (by omega) hi).endByte
    dsimp only at hfirst hfirstEnd hsecond hsecondEnd
    rw [EndsLater, hfirstEnd, hsecondEnd, horder.endByte_lt_iff hfirst hsecond]
    omega
  rw [EndsIncrease, List.isChain_iff_getElem]
  constructor
  · rintro ⟨other, hother, hchain⟩ i hi
    obtain rfl := Option.some.inj (hchunks.symm.trans hother)
    exact (hends i (by omega)).mp (List.isChain_iff_getElem.mp hchain i (by omega))
  · intro hincrease
    refine ⟨chunks, hchunks, List.isChain_iff_getElem.mpr fun i hi => ?_⟩
    exact (hends i hi).mpr (hincrease i (by omega))

theorem chunksOf_endsLater_iff : (∃ chunks, chunksOf text policy preferred = some chunks ∧
    chunks.IsChain EndsLater) ↔ BreaksEarly policy preferred (spans text).length :=
  (chunksOf_endsLater text policy preferred).trans endsIncrease_iff

end Ends

/-- Each chunk ends behind the previous one exactly when every isolated break comes early. -/
theorem chunkers_endsLater_iff [Unicode] [LexicalArith]
    (isFinalSigma : List Char → List Char → Bool) (text : List Char) :
    (∀ policy : TokenChunkingPolicy,
      (∃ chunks, chunkTextTokenAware isFinalSigma text policy = some chunks ∧
        chunks.IsChain EndsLater) ↔
      BreaksEarly policy.windows
        (preferredBreaks isFinalSigma text (spans text) policy.structureKind)
        (spans text).length) ∧
    ∀ (policy : SemanticChunkingPolicy) (scores : List (ℕ × F32)),
      (∃ chunks, chunksFromSimilarityScores text policy scores = some chunks ∧
        chunks.IsChain EndsLater) ↔
      BreaksEarly policy.windows (dissimilarBreaks policy scores) (spans text).length := by
  constructor
  · intro policy
    exact chunksOf_endsLater_iff text policy.windows _
  · intro policy scores
    exact chunksOf_endsLater_iff text policy.windows _

/-- Chunks of three words with an overlap of one. -/
def overlappingSentences : TokenChunkingPolicy where
  structureKind := .sentences
  maxTokens := 3
  tokenOverlap := 1
  tokenizer := .unicodeWordsV1
  overlap_lt := by decide

theorem chunks_overlappingSentences :
    @chunkTextTokenAware LexicalIndexStore.asciiTables (fun _ _ => false) "a. b c d".toList
      overlappingSentences =
      some [⟨0, 0, 2, 2, ['a', '.']⟩, ⟨1, 1, 2, 1, ['.']⟩,
        ⟨2, 3, 8, 3, ['b', ' ', 'c', ' ', 'd']⟩] := by
  decide +kernel

/-- The overlap steps back to the full stop, and the second chunk holds nothing else. -/
theorem not_chunkers_endsLater : ¬∃ chunks,
    @chunkTextTokenAware LexicalIndexStore.asciiTables (fun _ _ => false) "a. b c d".toList
      overlappingSentences = some chunks ∧ chunks.IsChain EndsLater := by
  rintro ⟨chunks, hchunks, hchain⟩
  rw [chunks_overlappingSentences] at hchunks
  obtain rfl := Option.some.inj hchunks
  exact lt_irrefl 2 (List.isChain_cons_cons.mp hchain).1

end Ketebe
