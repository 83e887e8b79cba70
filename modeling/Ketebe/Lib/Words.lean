import Mathlib.Algebra.GroupWithZero.Nat
import Mathlib.Data.List.DropRight

/-!
Words between blanks, counted in one pass, and the prefix of a list whose items add up
to a given size.
-/
namespace Ketebe.Lib.Words

variable {α : Type*} {blank : α → Bool}

/-! ### Words -/

/-- The longest runs without a blank. -/
def words (blank : α → Bool) (items : List α) : List (List α) :=
  (items.splitOnP blank).filter (· ≠ [])

/-- Words counted where they begin, inside a word or after a blank. -/
def countFrom (blank : α → Bool) (inWord : Bool) : List α → ℕ
  | [] => 0
  | item :: rest =>
      (if !blank item && !inWord then 1 else 0) + countFrom blank (!blank item) rest

theorem length_filter_tail (items : List α) :
    countFrom blank true items = ((items.splitOnP blank).tail.filter (· ≠ [])).length ∧
      countFrom blank false items = (words blank items).length := by
  unfold words
  induction items with
  | nil => exact ⟨rfl, rfl⟩
  | cons item rest ih =>
    rw [List.splitOnP_cons_eq_if_modifyHead]
    cases hblank : blank item with
    | true =>
      simp only [countFrom, hblank]
      simpa using ih.2
    | false =>
      obtain ⟨first, others, hsplit⟩ :=
        List.exists_cons_of_ne_nil (List.splitOnP_ne_nil blank rest)
      rw [hsplit] at ih ⊢
      simp only [countFrom, hblank]
      simpa [Nat.add_comm] using ih.1

/-- A pass that starts after a blank counts the words. -/
theorem countFrom_eq (items : List α) :
    countFrom blank false items = (words blank items).length :=
  (length_filter_tail items).2

theorem countFrom_blank {inWord : Bool} {blanks : List α} (h : ∀ item ∈ blanks, blank item) :
    countFrom blank inWord blanks = 0 := by
  induction blanks generalizing inWord with
  | nil => rfl
  | cons item rest ih =>
    have hitem : blank item = true := h item List.mem_cons_self
    simp only [countFrom, hitem, ih fun other hother => h other (List.mem_cons_of_mem _ hother)]
    rfl

/-- Blanks at the end are no words. -/
theorem countFrom_append_blank {inWord : Bool} {items blanks : List α}
    (h : ∀ item ∈ blanks, blank item) :
    countFrom blank inWord (items ++ blanks) = countFrom blank inWord items := by
  induction items generalizing inWord with
  | nil => exact countFrom_blank h
  | cons item rest ih => simp only [List.cons_append, countFrom, ih]

/-! ### Prefixes by size -/

section Size

variable (size : α → ℕ)

/-- The prefix of the given size; nothing where an item would be cut. -/
def sliceTo : ℕ → List α → Option (List α)
  | 0, _ => some []
  | _ + 1, [] => none
  | stop + 1, item :: rest =>
      if size item ≤ stop + 1 then (sliceTo (stop + 1 - size item) rest).map (item :: ·) else none

theorem sliceTo_sum (hsize : ∀ item, 0 < size item) (taken rest : List α) :
    sliceTo size (taken.map size).sum (taken ++ rest) = some taken := by
  induction taken with
  | nil => rw [List.map_nil, List.sum_nil, sliceTo]
  | cons item others ih =>
    obtain ⟨stop, hstop⟩ : ∃ stop, size item + (others.map size).sum = stop + 1 :=
      Nat.exists_eq_succ_of_ne_zero (Nat.add_pos_left (hsize item) _).ne'
    rw [List.map_cons, List.sum_cons, hstop, List.cons_append, sliceTo,
      if_pos (by omega), ← hstop, Nat.add_sub_cancel_left, ih]
    rfl

end Size

end Ketebe.Lib.Words
