import Ketebe.Collection
import Ketebe.Lib.Occurrences
import Ketebe.Lowercase

/-!
Where a text may be cut. The boundaries of sentences, paragraphs, Markdown blocks and
HTML elements are byte offsets; those of HTML are found in the text in lower case.
-/
namespace Ketebe

open Lib.Occurrences Lib.SortedSet

/-- The length of a text in UTF-8. -/
def byteLength (text : List Char) : ℕ := extent Char.utf8Size text

/-! ### Sentences, paragraphs and Markdown -/

def endsSentence (character : Char) : Bool :=
  character == '.' || character == '!' || character == '?'

/-- The offsets behind a full stop, an exclamation or a question mark that ends the text or
precedes white space, which belongs to the sentence. -/
def sentenceBoundariesFrom (offset : ℕ) (text : List Char) : List ℕ :=
  match text with
  | [] => []
  | character :: rest =>
      if endsSentence character && rest.head?.all isWhitespace then
        let boundary := offset + character.utf8Size + byteLength (rest.takeWhile isWhitespace)
        boundary :: sentenceBoundariesFrom boundary (rest.dropWhile isWhitespace)
      else sentenceBoundariesFrom (offset + character.utf8Size) rest
termination_by text.length
decreasing_by
  · exact Nat.lt_succ_of_le (List.length_dropWhile_le _ _)
  · exact Nat.lt_succ_self _

def sentenceBoundaries (text : List Char) : List ℕ := sentenceBoundariesFrom 0 text

/-- The offsets behind two or more line feeds. -/
def paragraphBoundariesFrom (offset : ℕ) (text : List Char) : List ℕ :=
  match text with
  | [] => []
  | '\n' :: '\n' :: rest =>
      let boundary := offset + 2 + (rest.takeWhile (· == '\n')).length
      boundary :: paragraphBoundariesFrom boundary (rest.dropWhile (· == '\n'))
  | character :: rest => paragraphBoundariesFrom (offset + character.utf8Size) rest
termination_by text.length
decreasing_by
  · exact Nat.lt_succ_of_lt (Nat.lt_succ_of_le (List.length_dropWhile_le _ _))
  · exact Nat.lt_succ_self _

def paragraphBoundaries (text : List Char) : List ℕ := paragraphBoundariesFrom 0 text

/-- `split_inclusive('\n')`. -/
def splitInclusive : List Char → List (List Char)
  | [] => []
  | character :: rest =>
      if character = '\n' then [character] :: splitInclusive rest
      else match splitInclusive rest with
        | [] => [[character]]
        | line :: lines => (character :: line) :: lines

/-- A heading, a list item, a quotation or a fence. -/
def startsMarkdownBlock (line : List Char) : Bool :=
  let trimmed := line.dropWhile isWhitespace
  ["#", "- ", "* ", "> ", "```"].any fun start => start.toList.isPrefixOf trimmed

def markdownLineBoundaries (offset : ℕ) : List (List Char) → List ℕ
  | [] => []
  | line :: lines =>
      if 0 < offset && startsMarkdownBlock line then
        offset :: markdownLineBoundaries (offset + byteLength line) lines
      else markdownLineBoundaries (offset + byteLength line) lines

def markdownBoundaries (text : List Char) : List ℕ :=
  sortDedup (paragraphBoundaries text ++ markdownLineBoundaries 0 (splitInclusive text))

/-! ### HTML -/

def blockEnds : List String :=
  ["</p>", "</div>", "</section>", "</article>", "</li>", "</ul>", "</ol>", "</h1>", "</h2>",
    "</h3>"]

section Html

variable (isFinalSigma : List Char → List Char → Bool)

def htmlBoundaries (text : List Char) : List ℕ :=
  sortDedup (blockEnds.flatMap fun marker =>
    (ends Char.utf8Size marker.toList (toLowercase isFinalSigma text)).map
      (min · (byteLength text)))

end Html

end Ketebe
