import Ketebe.TextBoundaries

/-!
The boundaries of HTML elements as positions in the original text. The end tags of the
text in lower case are those of the text itself, but their offsets are measured in the
former, which may be longer or shorter.
-/
namespace Ketebe

open Lib.Occurrences Lib.SortedSet

/-! ### Tags in a text and in its lower case -/

/-- A pattern that no character beyond ASCII can contribute to. -/
structure Plain (pattern : List Char) : Prop where
  ascii : ∀ character ∈ pattern, character.toNat < 128 ∧ character ≠ 'k'
  last : pattern.getLast? ≠ some 'i'

theorem Plain.tail {head : Char} {rest : List Char} (h : Plain (head :: rest)) : Plain rest := by
  refine ⟨fun character hmem => h.ascii character (List.mem_cons_of_mem _ hmem), fun hlast => ?_⟩
  cases rest with
  | nil => cases hlast
  | cons next rest => exact h.last (by rw [List.getLast?_cons_cons, hlast])

section Blocks

variable {text pattern after : List Char} {blocks : List (List Char)}

theorem block_ne_nil (hblocks : List.Forall₂ Lowers text blocks) {block : List Char}
    (h : block ∈ blocks) : block ≠ [] := by
  induction hblocks with
  | nil => exact absurd h List.not_mem_nil
  | cons hlowers hrest ih =>
    rcases List.mem_cons.mp h with rfl | hmem
    · exact hlowers.ne_nil
    · exact ih hmem

/-- A plain pattern at the front of the lower case is there in the text, up to case. -/
theorem tag_of_prefix (hblocks : List.Forall₂ Lowers text blocks) (hplain : Plain pattern)
    (hflat : blocks.flatten = pattern ++ after) : ∃ tag rest, text = tag ++ rest ∧
      tag.map Char.toLower = pattern ∧ (blocks.take tag.length).flatten = pattern := by
  induction hblocks generalizing pattern with
  | nil =>
    have hnil : pattern = [] := (List.append_eq_nil_iff.mp hflat.symm).1
    exact ⟨[], [], rfl, hnil.symm, hnil.symm⟩
  | cons hlowers hrest ih =>
    rename_i character block text blocks
    cases pattern with
    | nil => exact ⟨[], _, rfl, rfl, rfl⟩
    | cons head pattern =>
      cases block with
      | nil => exact absurd rfl hlowers.ne_nil
      | cons first block =>
        rw [List.flatten_cons, List.cons_append, List.cons_append, List.cons.injEq] at hflat
        obtain ⟨rfl, hflat⟩ := hflat
        obtain ⟨hascii, hkelvin⟩ := hplain.ascii first (List.mem_cons_self ..)
        rcases hlowers.head_ascii hascii with ⟨hlower, rfl⟩ | hk | ⟨rfl, rfl⟩
        · obtain ⟨tag, rest, rfl, htag, htake⟩ := ih hplain.tail hflat
          refine ⟨character :: tag, rest, rfl, ?_, ?_⟩
          · rw [List.map_cons, hlower, htag]
          · rw [List.length_cons, List.take_succ_cons, List.flatten_cons, htake]
            rfl
        · exact absurd hk hkelvin
        · -- the combining dot would have to stand in the pattern
          cases pattern with
          | nil => exact absurd rfl hplain.last
          | cons next pattern =>
            rw [List.cons_append, List.cons_append, List.cons.injEq] at hflat
            have hnext := (hplain.ascii next
              (List.mem_cons_of_mem _ (List.mem_cons_self ..))).1
            rw [← hflat.1] at hnext
            exact absurd hnext (by decide)

/-- The sign at the head of a tag comes from itself. -/
theorem block_of_sign {character : Char} {block : List Char} (h : Lowers character block)
    (hmem : '<' ∈ block) : block = ['<'] := by
  unfold Lowers at h
  split at h
  · subst h
    rw [List.mem_singleton.mp hmem]
  · rcases h with rfl | rfl | ⟨lower, rfl, hlower⟩
    · exact absurd hmem (by decide)
    · exact absurd hmem (by decide)
    · rw [List.mem_singleton.mp hmem]

/-- A tag in the lower case comes from a tag in the text. -/
theorem tag_of_occurrence {body before : List Char} (hblocks : List.Forall₂ Lowers text blocks)
    (hplain : Plain ('<' :: body)) (hflat : blocks.flatten = before ++ ('<' :: body) ++ after) :
    ∃ front tag rest, text = front ++ tag ++ rest ∧ tag.map Char.toLower = '<' :: body ∧
      (blocks.take (front ++ tag).length).flatten = before ++ ('<' :: body) := by
  induction hblocks generalizing before with
  | nil => simp at hflat
  | cons hlowers hrest ih =>
    rename_i character block text blocks
    have hkeep {before' : List Char} (hbefore : before = block ++ before')
        (hinner : blocks.flatten = before' ++ ('<' :: body) ++ after) :
        ∃ front tag rest, character :: text = front ++ tag ++ rest ∧
          tag.map Char.toLower = '<' :: body ∧ ((block :: blocks).take
            (front ++ tag).length).flatten = before ++ ('<' :: body) := by
      obtain ⟨front, tag, rest, rfl, htag, htake⟩ := ih hinner
      refine ⟨character :: front, tag, rest, rfl, htag, ?_⟩
      rw [List.cons_append, List.length_cons, List.take_succ_cons, List.flatten_cons, htake,
        hbefore, List.append_assoc]
    rw [List.flatten_cons, List.append_assoc] at hflat
    rcases List.append_eq_append_iff.mp hflat with ⟨inner, hbefore, hinner⟩ | ⟨inner, hblock, hinner⟩
    · exact hkeep hbefore (by rw [hinner, List.append_assoc])
    · cases inner with
      | nil =>
        rw [List.append_nil] at hblock
        exact hkeep (by rw [hblock, List.append_nil])
          (by rw [List.nil_append, ← List.nil_append blocks.flatten, ← hinner])
      | cons sign inner =>
        rw [List.cons_append, List.cons_append, List.cons.injEq] at hinner
        obtain ⟨rfl, hinner⟩ := hinner
        have hsign := block_of_sign hlowers
          (hblock ▸ List.mem_append_right _ (List.mem_cons_self ..))
        have hbefore : before = [] := by
          rw [hsign] at hblock
          cases before with
          | nil => rfl
          | cons _ before => simp at hblock
        subst hbefore
        obtain ⟨tag, rest, htext, htag, htake⟩ := tag_of_prefix (.cons hlowers hrest) hplain
          (by rw [List.flatten_cons, hblock, List.nil_append, List.cons_append, List.cons_append, hinner])
        exact ⟨[], tag, rest, htext, htag, htake⟩

theorem toLower_foreign {character : Char} (h : 128 ≤ character.toNat) :
    character.toLower = character := by
  refine dif_neg fun hletter => ?_
  have hle : character.toNat ≤ 90 := UInt32.le_iff_toNat_le.mp hletter.2
  omega

/-- ASCII characters lower one by one. -/
theorem flatten_of_ascii (hblocks : List.Forall₂ Lowers text blocks)
    (hascii : ∀ character ∈ text.map Char.toLower, character.toNat < 128) :
    blocks.flatten = text.map Char.toLower := by
  induction hblocks with
  | nil => rfl
  | cons hlowers hrest ih =>
    rename_i character block text blocks
    rw [List.map_cons, List.forall_mem_cons] at hascii
    have hcharacter : character.toNat < 128 := by
      by_contra hforeign
      rw [toLower_foreign (Nat.not_lt.mp hforeign)] at hascii
      exact hforeign hascii.1
    have hblock : block = [character.toLower] := by
      unfold Lowers at hlowers
      rwa [if_pos hcharacter] at hlowers
    rw [List.flatten_cons, hblock, ih hascii.2, List.map_cons]
    rfl

theorem take_of_tag {front tag rest : List Char} (hblocks : List.Forall₂ Lowers text blocks)
    (htext : text = front ++ tag ++ rest)
    (hascii : ∀ character ∈ tag.map Char.toLower, character.toNat < 128) :
    (blocks.take (front ++ tag).length).flatten =
      (blocks.take front.length).flatten ++ tag.map Char.toLower := by
  have htag : List.Forall₂ Lowers tag ((blocks.drop front.length).take tag.length) := by
    have hslice := List.forall₂_take tag.length (List.forall₂_drop front.length hblocks)
    rw [htext, List.append_assoc, List.drop_left, List.take_left] at hslice
    exact hslice
  rw [List.length_append, List.take_add, List.flatten_append, flatten_of_ascii htag hascii]

end Blocks

/-! ### Offsets -/

/-- Two increasing measures give the same offsets, the first of them cut off at the end of the
second, only if they agree wherever an offset is taken. -/
theorem same_offsets_iff {taken : ℕ → Prop} {last : ℕ} {first second : ℕ → ℕ}
    (hlast : ∀ n, taken n → n ≤ last)
    (hfirst : ∀ m n, m < n → n ≤ last → first m < first n)
    (hsecond : ∀ m n, m < n → n ≤ last → second m < second n) :
    (∀ offset, (∃ n, taken n ∧ offset = min (first n) (second last)) ↔
        ∃ n, taken n ∧ offset = second n) ↔
      ∀ n, taken n → first n = second n ∨ n = last ∧ second last ≤ first n := by
  have hmono (m n : ℕ) (hle : m ≤ n) (hn : n ≤ last) : first m ≤ first n ∧ second m ≤ second n := by
    rcases Nat.eq_or_lt_of_le hle with rfl | hlt
    · exact ⟨Nat.le_refl _, Nat.le_refl _⟩
    · exact ⟨(hfirst m n hlt hn).le, (hsecond m n hlt hn).le⟩
  have hagree (n : ℕ) (hn : n ≤ last) : min (first n) (second last) = second n ↔
      first n = second n ∨ n = last ∧ second last ≤ first n := by
    have hbound := (hmono n last hn (Nat.le_refl _)).2
    constructor
    · intro hmin
      rcases Nat.eq_or_lt_of_le hn with rfl | hlt
      · omega
      · have hstrict := hsecond n last hlt (Nat.le_refl _)
        omega
    · rintro (heq | ⟨rfl, hle⟩) <;> omega
  constructor
  · intro hsame n
    induction n using Nat.strong_induction_on with
    | h n ih =>
      intro hn
      have hnlast := hlast n hn
      rw [← hagree n hnlast]
      -- the offset behind `n` is found, at `n` or later
      obtain ⟨later, hlater, heq⟩ := (hsame (second n)).mpr ⟨n, hn, rfl⟩
      have hle : n ≤ later := by
        by_contra hlt
        have hbefore := (hagree later (hlast later hlater)).mpr (ih later (by omega) hlater)
        have hstrict := hsecond later n (by omega) hnlast
        omega
      -- what is found at `n` is an offset, of `n` or an earlier one
      obtain ⟨earlier, hearlier, heq'⟩ := (hsame (min (first n) (second last))).mp ⟨n, hn, rfl⟩
      have hupper := (hmono n later hle (hlast later hlater)).1
      have hge : earlier ≤ n := by
        by_contra hlt
        have hstrict := hsecond n earlier (by omega) (hlast earlier hearlier)
        omega
      rcases Nat.eq_or_lt_of_le hge with rfl | hlt
      · exact heq'
      · have hbefore := (hagree earlier (hlast earlier hearlier)).mpr (ih earlier hlt hearlier)
        have hstrict := hfirst earlier n hlt hnlast
        have hstrict' := hsecond earlier last (by omega) (Nat.le_refl _)
        omega
  · intro hall offset
    constructor
    · rintro ⟨n, hn, rfl⟩
      exact ⟨n, hn, (hagree n (hlast n hn)).mpr (hall n hn)⟩
    · rintro ⟨n, hn, rfl⟩
      exact ⟨n, hn, ((hagree n (hlast n hn)).mpr (hall n hn)).symm⟩

/-! ### What is returned -/

section Html

variable (isFinalSigma : List Char → List Char → Bool) (text : List Char)

/-- One of the end tags, in any case, ends behind this many characters. -/
def EndsTag (length : ℕ) : Prop := ∃ marker ∈ blockEnds, ∃ front tag rest,
  text = front ++ tag ++ rest ∧ tag.map Char.toLower = marker.toList ∧
    length = (front ++ tag).length

/-- The length of the lower case of the first characters. -/
def loweredLength (length : ℕ) : ℕ :=
  byteLength ((lowercaseBlocks isFinalSigma [] text).take length).flatten

variable {isFinalSigma text}

theorem plain_blockEnd {marker : String} (h : marker ∈ blockEnds) : ∃ body,
    marker.toList = '<' :: body ∧ '<' ∉ body ∧ Plain ('<' :: body) := by
  have hall : ∀ marker ∈ blockEnds, marker.toList = '<' :: marker.toList.tail ∧
      '<' ∉ marker.toList.tail ∧ (('<' :: marker.toList.tail).all fun character =>
        decide (character.toNat < 128 ∧ character ≠ 'k')) ∧
      ('<' :: marker.toList.tail).getLast? ≠ some 'i' := by decide
  obtain ⟨hhead, hbody, hascii, hlast⟩ := hall marker h
  exact ⟨marker.toList.tail, hhead, hbody, fun character hmem =>
    of_decide_eq_true (List.all_eq_true.mp hascii character hmem), hlast⟩

theorem mem_htmlBoundaries {position : ℕ} : position ∈ htmlBoundaries isFinalSigma text ↔
    ∃ length, EndsTag text length ∧
      position = min (loweredLength isFinalSigma text length) (byteLength text) := by
  have hblocks := forall₂_lowercaseBlocks isFinalSigma [] text
  unfold htmlBoundaries
  rw [mem_sortDedup, List.mem_flatMap]
  constructor
  · rintro ⟨marker, hmarker, hmem⟩
    obtain ⟨offset, hoffset, rfl⟩ := List.mem_map.mp hmem
    obtain ⟨body, heq, hbody, hplain⟩ := plain_blockEnd hmarker
    rw [heq, mem_ends hbody] at hoffset
    obtain ⟨before, after, hflat, rfl⟩ := hoffset
    obtain ⟨front, tag, rest, htext, htag, htake⟩ := tag_of_occurrence hblocks hplain hflat
    refine ⟨_, ⟨marker, hmarker, front, tag, rest, htext, htag.trans heq.symm, rfl⟩, ?_⟩
    rw [loweredLength, htake]
    rfl
  · rintro ⟨length, ⟨marker, hmarker, front, tag, rest, htext, htag, rfl⟩, rfl⟩
    obtain ⟨body, heq, hbody, hplain⟩ := plain_blockEnd hmarker
    have htake := take_of_tag hblocks htext (by
      rw [htag, heq]
      exact fun character hmem => (hplain.ascii character hmem).1)
    refine ⟨marker, hmarker, List.mem_map.mpr ⟨_, ?_, rfl⟩⟩
    rw [heq, mem_ends hbody]
    refine ⟨((lowercaseBlocks isFinalSigma [] text).take front.length).flatten,
      ((lowercaseBlocks isFinalSigma [] text).drop (front ++ tag).length).flatten, ?_, ?_⟩
    · rw [← heq, ← htag, ← htake, ← List.flatten_append, List.take_append_drop]
      rfl
    · rw [loweredLength, htake, htag, heq]
      rfl

/-- The boundaries are exactly the offsets behind the end tags if and only if the text before
the end of each end tag keeps its length in lower case; before a tag at the very end of the
text it may get longer. -/
theorem htmlBoundaries_exact_iff :
    (∀ position, position ∈ htmlBoundaries isFinalSigma text ↔
        ∃ length, EndsTag text length ∧ position = byteLength (text.take length)) ↔
      ∀ length, EndsTag text length →
        loweredLength isFinalSigma text length = byteLength (text.take length) ∨
          length = text.length ∧ byteLength text ≤ loweredLength isFinalSigma text length := by
  have hblocks := forall₂_lowercaseBlocks isFinalSigma [] text
  have hlast (length : ℕ) (h : EndsTag text length) : length ≤ text.length := by
    obtain ⟨-, -, front, tag, rest, rfl, -, rfl⟩ := h
    simp
  have hprefix {α : Type} (list : List α) {m n : ℕ} (hlt : m < n) (hn : n ≤ list.length) :
      list.take m <+: list.take n ∧ (list.take m).length < (list.take n).length := by
    refine ⟨List.take_prefix_take_left hlt.le, ?_⟩
    rw [List.length_take_of_le hn, List.length_take_of_le (by omega)]
    exact hlt
  have hsecond (m n : ℕ) (hlt : m < n) (hn : n ≤ text.length) :
      byteLength (text.take m) < byteLength (text.take n) := by
    obtain ⟨htake, hlength⟩ := hprefix text hlt hn
    exact extent_lt_of_prefix _ (fun character _ => character.utf8Size_pos) htake hlength
  have hfirst (m n : ℕ) (hlt : m < n) (hn : n ≤ text.length) :
      loweredLength isFinalSigma text m < loweredLength isFinalSigma text n := by
    obtain ⟨htake, hlength⟩ := hprefix (lowercaseBlocks isFinalSigma [] text) hlt
      (by rw [← hblocks.length_eq]; exact hn)
    rw [loweredLength, loweredLength, byteLength, byteLength, extent_flatten, extent_flatten]
    refine extent_lt_of_prefix _ (fun block hblock => ?_) htake hlength
    exact extent_pos _ (fun character _ => character.utf8Size_pos)
      (block_ne_nil hblocks (List.mem_of_mem_take hblock))
  have hoffsets := same_offsets_iff hlast hfirst hsecond
  rw [List.take_length] at hoffsets
  rw [← hoffsets]
  exact forall_congr' fun position => by rw [mem_htmlBoundaries]

end Html

/-- A dotted capital I gets longer in lower case, and the boundary moves on by one byte. -/
theorem not_htmlBoundaries_exact :
    ¬∀ position, position ∈ htmlBoundaries (fun _ _ => false) "İ</p>x".toList ↔
      ∃ length, EndsTag "İ</p>x".toList length ∧
        position = byteLength ("İ</p>x".toList.take length) := by
  intro h
  have htag : EndsTag "İ</p>x".toList 5 :=
    ⟨"</p>", by decide, ['İ'], "</p>".toList, ['x'], by decide, by decide, by decide⟩
  have hmem := (h 6).mpr ⟨5, htag, by decide⟩
  rw [htmlBoundaries, mem_sortDedup] at hmem
  revert hmem
  decide

end Ketebe
