import Ketebe.LexicalIndex
import Ketebe.Lib.SlidingWindows
import Ketebe.TextBoundaries

/-!
The chunkers that count tokens. A text is split into words and single signs; the chunks
are windows over these tokens that end early at the boundaries of the structure, or where
the similarity of the two sides is low.
-/
namespace Ketebe

open Lib.Occurrences Lib.SlidingWindows

@[ext] structure TokenSpan where
  startByte : ℕ
  endByte : ℕ
  deriving DecidableEq, Repr

/-! ### Slices -/

/-- What follows the first bytes; `none` where no character starts there. -/
def dropBytes : ℕ → List Char → Option (List Char)
  | 0, text => some text
  | _ + 1, [] => none
  | bytes + 1, character :: rest =>
      if character.utf8Size ≤ bytes + 1 then dropBytes (bytes + 1 - character.utf8Size) rest
      else none

/-- The first bytes; `none` where no character ends with them. -/
def takeBytes : ℕ → List Char → Option (List Char)
  | 0, _ => some []
  | _ + 1, [] => none
  | bytes + 1, character :: rest =>
      if character.utf8Size ≤ bytes + 1 then
        (takeBytes (bytes + 1 - character.utf8Size) rest).map (character :: ·)
      else none

/-- `text[start_byte..end_byte]`, where `none` is a panic. -/
def slice (text : List Char) (startByte endByte : ℕ) : Option (List Char) :=
  if startByte ≤ endByte then (dropBytes startByte text).bind (takeBytes (endByte - startByte))
  else none

@[simp] theorem byteLength_nil : byteLength [] = 0 := rfl

@[simp] theorem byteLength_cons (character : Char) (rest : List Char) :
    byteLength (character :: rest) = character.utf8Size + byteLength rest :=
  extent_cons _ character rest

@[simp] theorem byteLength_append (front back : List Char) :
    byteLength (front ++ back) = byteLength front + byteLength back := extent_append _ front back

theorem dropBytes_append (front back : List Char) :
    dropBytes (byteLength front) (front ++ back) = some back := by
  induction front with
  | nil => cases back <;> rfl
  | cons character rest ih =>
    have hsize := character.utf8Size_pos
    obtain ⟨bytes, hbytes⟩ : ∃ bytes, byteLength (character :: rest) = bytes + 1 :=
      ⟨byteLength (character :: rest) - 1, by rw [byteLength_cons]; omega⟩
    rw [byteLength_cons] at hbytes
    rw [byteLength_cons, hbytes, List.cons_append, dropBytes, if_pos (by omega)]
    rwa [show bytes + 1 - character.utf8Size = byteLength rest by omega]

theorem takeBytes_append (body back : List Char) :
    takeBytes (byteLength body) (body ++ back) = some body := by
  induction body with
  | nil => cases back <;> rfl
  | cons character rest ih =>
    have hsize := character.utf8Size_pos
    obtain ⟨bytes, hbytes⟩ : ∃ bytes, byteLength (character :: rest) = bytes + 1 :=
      ⟨byteLength (character :: rest) - 1, by rw [byteLength_cons]; omega⟩
    rw [byteLength_cons] at hbytes
    rw [byteLength_cons, hbytes, List.cons_append, takeBytes, if_pos (by omega),
      show bytes + 1 - character.utf8Size = byteLength rest by omega, ih]
    rfl

/-- The bytes from one offset to another are the characters of `body`. -/
def Holds (text : List Char) (startByte : ℕ) (body : List Char) (endByte : ℕ) : Prop :=
  ∃ front back, text = front ++ body ++ back ∧ byteLength front = startByte ∧
    byteLength (front ++ body) = endByte

theorem Holds.slice_eq {text body : List Char} {startByte endByte : ℕ}
    (h : Holds text startByte body endByte) : slice text startByte endByte = some body := by
  obtain ⟨front, back, rfl, rfl, rfl⟩ := h
  rw [byteLength_append, slice, if_pos (by omega), List.append_assoc, dropBytes_append,
    Option.bind_some, Nat.add_sub_cancel_left, takeBytes_append]

/-- Two pieces of a text enclose a third one. -/
theorem Holds.enclose {text first last : List Char} {startByte firstEnd lastStart endByte : ℕ}
    (hfirst : Holds text startByte first firstEnd) (hlast : Holds text lastStart last endByte)
    (hle : startByte ≤ endByte) : ∃ body, Holds text startByte body endByte := by
  obtain ⟨front, back, htext, rfl, -⟩ := hfirst
  obtain ⟨before, after, hsplit, -, rfl⟩ := hlast
  have hfront : front <+: text := ⟨first ++ back, by rw [htext, List.append_assoc]⟩
  have hbefore : before ++ last <+: text := ⟨after, hsplit.symm⟩
  have hprefix : front <+: before ++ last := by
    rcases List.prefix_or_prefix_of_prefix hfront hbefore with h | h
    · exact h
    · by_cases hlength : (before ++ last).length < front.length
      · have hlt := extent_lt_of_prefix Char.utf8Size (fun c _ => c.utf8Size_pos) h hlength
        exact absurd hlt (Nat.not_lt.mpr hle)
      · rw [h.eq_of_length_le (Nat.le_of_not_lt hlength)]
  obtain ⟨body, hbody⟩ := hprefix
  exact ⟨body, front, after, by rw [hbody, hsplit], rfl, by rw [hbody]⟩

/-! ### Tokens -/

def isWord [Unicode] (character : Char) : Bool := Unicode.isAlphanumeric character || character == '_'

/-- The token that ends where a word is left. -/
def readWord (offset : ℕ) (wordStart : Option ℕ) : List TokenSpan :=
  (wordStart.map fun start => ⟨start, offset⟩).toList

/-- The token of a sign, which white space does not have. -/
def readSign (offset : ℕ) (character : Char) : List TokenSpan :=
  if isWhitespace character then [] else [⟨offset, offset + character.utf8Size⟩]

/-- The loop over the characters, with the start of the word being read. -/
def spansFrom [Unicode] (offset : ℕ) (wordStart : Option ℕ) : List Char → List TokenSpan
  | [] => readWord offset wordStart
  | character :: rest =>
      if isWord character then
        spansFrom (offset + character.utf8Size) (some (wordStart.getD offset)) rest
      else
        readWord offset wordStart ++
          (readSign offset character ++ spansFrom (offset + character.utf8Size) none rest)

/-- `UnicodeWordTokenCounter::spans`. -/
def spans [Unicode] (text : List Char) : List TokenSpan := spansFrom 0 none text

/-- The word being read, if any, is the end of what has been seen. -/
def ReadsWord (seen : List Char) : Option ℕ → Prop
  | none => True
  | some start => ∃ front word, seen = front ++ word ∧ word ≠ [] ∧ byteLength front = start

/-- Tokens are not empty, and each lies behind the previous one and behind `start`. -/
structure InOrder (start : ℕ) (tokens : List TokenSpan) : Prop where
  nonempty : ∀ token ∈ tokens, token.startByte < token.endByte
  behind : ∀ token ∈ tokens, start ≤ token.startByte
  pairwise : tokens.Pairwise fun first second => first.endByte ≤ second.startByte

def OnCharacters (text : List Char) (token : TokenSpan) : Prop :=
  ∃ body, Holds text token.startByte body token.endByte

variable {seen rest text : List Char} {wordStart : Option ℕ} {start middle : ℕ}

theorem InOrder.nil : InOrder start [] :=
  ⟨fun _ h => absurd h List.not_mem_nil, fun _ h => absurd h List.not_mem_nil, List.Pairwise.nil⟩

theorem InOrder.singleton {token : TokenSpan} (hnonempty : token.startByte < token.endByte)
    (hbehind : start ≤ token.startByte) : InOrder start [token] := by
  refine ⟨fun other hother => ?_, fun other hother => ?_, List.pairwise_singleton _ token⟩
  · rwa [List.mem_singleton.mp hother]
  · rwa [List.mem_singleton.mp hother]

theorem InOrder.append {first second : List TokenSpan} (hfirst : InOrder start first)
    (hend : ∀ token ∈ first, token.endByte ≤ middle) (hle : start ≤ middle)
    (hsecond : InOrder middle second) : InOrder start (first ++ second) := by
  refine ⟨fun token htoken => ?_, fun token htoken => ?_, ?_⟩
  · rcases List.mem_append.mp htoken with h | h
    · exact hfirst.nonempty token h
    · exact hsecond.nonempty token h
  · rcases List.mem_append.mp htoken with h | h
    · exact hfirst.behind token h
    · exact hle.trans (hsecond.behind token h)
  · refine List.pairwise_append.mpr ⟨hfirst.pairwise, hsecond.pairwise, ?_⟩
    intro token htoken other hother
    exact (hend token htoken).trans (hsecond.behind other hother)

theorem ReadsWord.start_le (h : ReadsWord seen wordStart) :
    wordStart.getD (byteLength seen) ≤ byteLength seen := by
  cases wordStart with
  | none => exact le_rfl
  | some start =>
    obtain ⟨front, word, rfl, -, rfl⟩ := h
    simp

theorem ReadsWord.push (h : ReadsWord seen wordStart) (character : Char) :
    ReadsWord (seen ++ [character]) (some (wordStart.getD (byteLength seen))) := by
  cases wordStart with
  | none => exact ⟨seen, [character], rfl, List.cons_ne_nil _ _, rfl⟩
  | some start =>
    obtain ⟨front, word, rfl, -, hstart⟩ := h
    exact ⟨front, word ++ [character], List.append_assoc .., by simp, hstart⟩

theorem ReadsWord.readWord (h : ReadsWord seen wordStart) (rest : List Char) :
    InOrder (wordStart.getD (byteLength seen)) (readWord (byteLength seen) wordStart) ∧
      ∀ token ∈ Ketebe.readWord (byteLength seen) wordStart,
        token.endByte ≤ byteLength seen ∧ OnCharacters (seen ++ rest) token := by
  cases wordStart with
  | none => exact ⟨InOrder.nil, fun token htoken => absurd htoken List.not_mem_nil⟩
  | some start =>
    obtain ⟨front, word, rfl, hword, rfl⟩ := h
    have hpos : 0 < byteLength word :=
      extent_pos _ (fun character _ => character.utf8Size_pos) hword
    constructor
    · refine InOrder.singleton ?_ le_rfl
      rw [byteLength_append]
      exact Nat.lt_add_of_pos_right hpos
    · intro token htoken
      obtain rfl := List.mem_singleton.mp htoken
      exact ⟨le_rfl, word, front, rest, rfl, rfl, rfl⟩

theorem readSign_spec (seen rest : List Char) (character : Char) :
    InOrder (byteLength seen) (readSign (byteLength seen) character) ∧
      ∀ token ∈ readSign (byteLength seen) character,
        token.endByte ≤ byteLength seen + character.utf8Size ∧
          OnCharacters (seen ++ character :: rest) token := by
  rw [readSign]
  split
  · exact ⟨InOrder.nil, fun token htoken => absurd htoken List.not_mem_nil⟩
  · constructor
    · exact InOrder.singleton (Nat.lt_add_of_pos_right character.utf8Size_pos) le_rfl
    · intro token htoken
      obtain rfl := List.mem_singleton.mp htoken
      exact ⟨le_rfl, [character], seen, rest, by simp, rfl, by simp⟩

/-- What the loop returns, by induction on the characters to come. -/
theorem spansFrom_spec [Unicode] (h : ReadsWord seen wordStart) :
    InOrder (wordStart.getD (byteLength seen)) (spansFrom (byteLength seen) wordStart rest) ∧
      ∀ token ∈ spansFrom (byteLength seen) wordStart rest, OnCharacters (seen ++ rest) token := by
  induction rest generalizing seen wordStart with
  | nil =>
    obtain ⟨horder, htokens⟩ := h.readWord []
    exact ⟨horder, fun token htoken => (htokens token htoken).2⟩
  | cons character rest ih =>
    have hseen : byteLength (seen ++ [character]) = byteLength seen + character.utf8Size := by
      simp
    have htext : seen ++ [character] ++ rest = seen ++ character :: rest := by simp
    rw [spansFrom]
    split
    · have hrest := ih (h.push character)
      rwa [hseen, htext] at hrest
    · obtain ⟨hword, hwords⟩ := h.readWord (character :: rest)
      obtain ⟨hsign, hsigns⟩ := readSign_spec seen rest character
      have hrest := ih (show ReadsWord (seen ++ [character]) none from trivial)
      rw [hseen, htext] at hrest
      have hlater : InOrder (byteLength seen) (readSign (byteLength seen) character ++
          spansFrom (byteLength seen + character.utf8Size) none rest) :=
        hsign.append (fun token htoken => (hsigns token htoken).1) (Nat.le_add_right _ _) hrest.1
      refine ⟨hword.append (fun token htoken => (hwords token htoken).1) h.start_le hlater, ?_⟩
      intro token htoken
      rcases List.mem_append.mp htoken with hread | hlater
      · exact (hwords token hread).2
      · rcases List.mem_append.mp hlater with hread | hlast
        · exact (hsigns token hread).2
        · exact hrest.2 token hlast

theorem spans_inOrder [Unicode] (text : List Char) : InOrder 0 (spans text) :=
  (spansFrom_spec (show ReadsWord [] none from trivial)).1

theorem spans_onCharacters [Unicode] (text : List Char) :
    ∀ token ∈ spans text, OnCharacters text token :=
  (spansFrom_spec (show ReadsWord [] none from trivial)).2

/-! ### Chunks -/

structure StructuredChunk where
  ordinal : ℕ
  startByte : ℕ
  endByte : ℕ
  tokenCount : ℕ
  text : List Char
  deriving DecidableEq, Repr

/-- The body of the loop, where `none` is a panic. -/
def chunkOf (text : List Char) (tokens : List TokenSpan) :
    (ℕ × ℕ) × ℕ → Option StructuredChunk
  | ((start, stop), ordinal) => do
      let startByte := (← tokens[start]?).startByte
      let endByte := (← tokens[stop - 1]?).endByte
      let body ← slice text startByte endByte
      pure ⟨ordinal, startByte, endByte, stop - start, body⟩

/-- The loop. Past the first window `size` is less than the number of tokens, so that
`start + size` does not overflow. -/
def chunksOf [Unicode] (text : List Char) (policy : Policy) (preferred : List ℕ) :
    Option (List StructuredChunk) :=
  let tokens := spans text
  (windows policy preferred tokens.length).zipIdx.mapM (chunkOf text tokens)

/-- A chunk may end before the first token of a sentence, a paragraph or a block. -/
def preferredBreaks (isFinalSigma : List Char → List Char → Bool) (text : List Char)
    (tokens : List TokenSpan) (structureKind : ChunkingStructure) : List ℕ :=
  let boundaries := match structureKind with
    | .tokens => []
    | .sentences => sentenceBoundaries text
    | .paragraphs => paragraphBoundaries text
    | .markdown => markdownBoundaries text
    | .html => htmlBoundaries isFinalSigma text
  (boundaries.map fun boundary => tokens.findIdx fun token => boundary ≤ token.startByte).filter
    fun index => 0 < index && index < tokens.length

def TokenChunkingPolicy.windows (policy : TokenChunkingPolicy) : Policy where
  size := policy.maxTokens
  overlap := policy.tokenOverlap
  least := 1
  overlap_lt := policy.overlap_lt
  least_pos := Nat.one_pos
  least_le := Nat.one_le_of_lt policy.overlap_lt

def chunkTextTokenAware [Unicode] (isFinalSigma : List Char → List Char → Bool)
    (text : List Char) (policy : TokenChunkingPolicy) : Option (List StructuredChunk) :=
  chunksOf text policy.windows
    (preferredBreaks isFinalSigma text (spans text) policy.structureKind)

namespace F32

/-- All bits but the sign. -/
def magnitude (value : F32) : ℕ := value.bits.toNat % 2 ^ 31

def isNan (value : F32) : Bool := 0x7f800000 < value.magnitude

/-- A signed integer that orders the values other than NaN. -/
def signedKey (value : F32) : ℤ :=
  if 2 ^ 31 ≤ value.bits.toNat then -(value.magnitude : ℤ) else value.magnitude

/-- The comparison `<`, which is false of a NaN. -/
def lessThan (left right : F32) : Bool :=
  !left.isNan && !right.isNan && left.signedKey < right.signedKey

end F32

def SemanticChunkingPolicy.windows (policy : SemanticChunkingPolicy) : Policy where
  size := policy.maxTokens
  overlap := policy.tokenOverlap
  least := policy.minTokens
  overlap_lt := policy.overlap_lt
  least_pos := policy.min_pos
  least_le := policy.min_le

/-- The indices with a score below the threshold, whatever they are. -/
def dissimilarBreaks [LexicalArith] (policy : SemanticChunkingPolicy)
    (scores : List (ℕ × F32)) : List ℕ :=
  let threshold :=
    LexicalArith.div (LexicalArith.ofNat policy.breakpointThresholdMilli) (LexicalArith.ofNat 1000)
  scores.filterMap fun (index, score) => if score.lessThan threshold then some index else none

def chunksFromSimilarityScores [Unicode] [LexicalArith] (text : List Char)
    (policy : SemanticChunkingPolicy) (scores : List (ℕ × F32)) :
    Option (List StructuredChunk) :=
  chunksOf text policy.windows (dissimilarBreaks policy scores)

end Ketebe
