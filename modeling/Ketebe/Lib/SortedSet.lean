import Mathlib.Data.List.Sort
import Mathlib.Order.Basic

/-!
Sorting followed by the removal of repetitions, which turns a list into the
strictly increasing list of its members.
-/
namespace Ketebe.Lib.SortedSet

variable {α : Type*}

/-- Removes every element that equals its successor. -/
def dedupConsecutive [DecidableEq α] : List α → List α
  | [] => []
  | [a] => [a]
  | a :: b :: rest =>
      if a = b then dedupConsecutive (b :: rest) else a :: dedupConsecutive (b :: rest)

theorem mem_dedupConsecutive [DecidableEq α] {a : α} {l : List α} :
    a ∈ dedupConsecutive l ↔ a ∈ l := by
  induction l using dedupConsecutive.induct with
  | case1 => rfl
  | case2 b => rfl
  | case3 b rest ih =>
    rw [dedupConsecutive, if_pos rfl, ih]
    simp
  | case4 b c rest hne ih =>
    rw [dedupConsecutive, if_neg hne]
    simp only [List.mem_cons, ih]

section Sorted

variable [LinearOrder α]

theorem pairwise_dedupConsecutive {l : List α} (h : l.Pairwise (· ≤ ·)) :
    (dedupConsecutive l).Pairwise (· < ·) := by
  induction l using dedupConsecutive.induct with
  | case1 => exact List.Pairwise.nil
  | case2 b => exact List.pairwise_singleton _ b
  | case3 b rest ih =>
    rw [dedupConsecutive, if_pos rfl]
    exact ih h.of_cons
  | case4 b c rest hne ih =>
    rw [dedupConsecutive, if_neg hne]
    rw [List.pairwise_cons] at h ⊢
    refine ⟨fun a ha => ?_, ih h.2⟩
    rw [mem_dedupConsecutive] at ha
    have hbc : b < c := lt_of_le_of_ne (h.1 c (List.mem_cons_self ..)) hne
    rcases List.mem_cons.mp ha with rfl | hrest
    · exact hbc
    · exact hbc.trans_le ((List.pairwise_cons.mp h.2).1 a hrest)

/-- `sort` and then `dedup`. -/
def sortDedup (l : List α) : List α := dedupConsecutive (l.mergeSort fun a b => a ≤ b)

@[simp] theorem sortDedup_singleton (a : α) : sortDedup [a] = [a] := by
  rw [sortDedup, List.mergeSort_singleton]
  rfl

@[simp] theorem mem_sortDedup {a : α} {l : List α} : a ∈ sortDedup l ↔ a ∈ l := by
  rw [sortDedup, mem_dedupConsecutive, List.mem_mergeSort]

theorem pairwise_sortDedup (l : List α) : (sortDedup l).Pairwise (· < ·) := by
  apply pairwise_dedupConsecutive
  exact List.pairwise_mergeSort' (· ≤ ·) l

theorem nodup_sortDedup (l : List α) : (sortDedup l).Nodup :=
  (pairwise_sortDedup l).imp ne_of_lt

/-- A strictly increasing list is determined by its members. -/
theorem eq_of_pairwise_of_mem {l l' : List α} (h : l.Pairwise (· < ·))
    (h' : l'.Pairwise (· < ·)) (hmem : ∀ a, a ∈ l ↔ a ∈ l') : l = l' := by
  apply List.Perm.eq_of_pairwise' h h'
  exact (List.perm_ext_iff_of_nodup (h.imp ne_of_lt) (h'.imp ne_of_lt)).mpr hmem

end Sorted

end Ketebe.Lib.SortedSet
