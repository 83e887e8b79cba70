import Ketebe.Lib.KeyedTable
import Mathlib.Data.List.Basic
import Mathlib.Order.Compare
import Std.Data.ExtTreeMap

/-!
Items gathered under keys in one pass, and the best of a run of items when a later one
replaces an earlier one only if it is better.
-/
namespace Ketebe.Lib.Groups

open scoped KeyedTable

section Gather

variable {K V E : Type*} [LinearOrder K] (keyOf : E → K) (put : E → Option V → V)

/-- Each item is put under its key over what was there. -/
def gather (table : Std.ExtTreeMap K V compare) (items : List E) : Std.ExtTreeMap K V compare :=
  items.foldl (fun table item => table.insert (keyOf item) (put item table[keyOf item]?)) table

/-- What the items of one key leave there. -/
def putAll (found : Option V) (items : List E) : Option V :=
  items.foldl (fun found item => some (put item found)) found

/-- Under a key stands what the items of that key leave, whatever comes between them. -/
theorem getElem?_gather (table : Std.ExtTreeMap K V compare) (items : List E) (k : K) :
    (gather keyOf put table items)[k]? =
      putAll put table[k]? (items.filter fun item => keyOf item = k) := by
  induction items generalizing table with
  | nil => rfl
  | cons item rest ih =>
    rw [gather, List.foldl_cons, ← gather, ih, Std.ExtTreeMap.getElem?_insert, List.filter_cons]
    by_cases hkey : keyOf item = k
    · rw [if_pos (compare_eq_iff_eq.mpr hkey), if_pos (decide_eq_true hkey), hkey]
      rfl
    · rw [if_neg fun h => hkey (compare_eq_iff_eq.mp h), if_neg (by simpa using hkey)]

theorem putAll_concat (found : Option V) (items : List E) (item : E) :
    putAll put found (items ++ [item]) = some (put item (putAll put found items)) := by
  rw [putAll, List.foldl_append]
  rfl

/-- Something is left as soon as there is an item. -/
theorem putAll_isSome {found : Option V} {items : List E}
    (h : found.isSome ∨ items ≠ []) : (putAll put found items).isSome := by
  induction items generalizing found with
  | nil => exact h.resolve_right fun hne => hne rfl
  | cons item rest ih => exact ih (.inl rfl)

end Gather

section Best

variable {α : Type*} {cmp : α → α → Ordering} {seen : List α} {best : α}

/-- The first of the best items of a list. -/
def FirstBest (cmp : α → α → Ordering) (items : List α) (best : α) : Prop :=
  ∃ before after : List α, items = before ++ best :: after ∧
    (∀ item ∈ before, cmp best item = .gt) ∧ ∀ item ∈ after, cmp item best ≠ .gt

theorem firstBest_singleton (item : α) : FirstBest cmp [item] item :=
  ⟨[], [], rfl, fun _ h => absurd h List.not_mem_nil, fun _ h => absurd h List.not_mem_nil⟩

theorem FirstBest.mem (h : FirstBest cmp seen best) : best ∈ seen := by
  obtain ⟨before, after, rfl, -⟩ := h
  exact List.mem_append_right before List.mem_cons_self

/-- One more item becomes the best one if it is better than the one kept. -/
theorem FirstBest.concat [Std.TransCmp cmp] (h : FirstBest cmp seen best) (item : α) :
    FirstBest cmp (seen ++ [item]) (if cmp item best = .gt then item else best) := by
  obtain ⟨before, after, rfl, hbefore, hafter⟩ := h
  split
  · rename_i hbetter
    refine ⟨before ++ best :: after, [], rfl, fun other hother => ?_,
      fun _ h => absurd h List.not_mem_nil⟩
    obtain hother | rfl | hother : other ∈ before ∨ other = best ∨ other ∈ after := by
      simpa only [List.mem_append, List.mem_cons] using hother
    · exact Std.TransCmp.gt_trans hbetter (hbefore other hother)
    · exact hbetter
    · refine Std.TransCmp.gt_of_gt_of_isGE hbetter ?_
      rw [Std.OrientedCmp.isGE_iff_isLE, Ordering.isLE_iff_ne_gt]
      exact hafter other hother
  · rename_i hbetter
    refine ⟨before, after ++ [item], by simp only [List.append_assoc, List.cons_append],
      hbefore, fun other hother => ?_⟩
    obtain hother | rfl : other ∈ after ∨ other = item := by
      simpa only [List.mem_append, List.mem_singleton] using hother
    · exact hafter other hother
    · exact hbetter

end Best

end Ketebe.Lib.Groups
