import Mathlib.Algebra.BigOperators.Group.List.Basic
import Mathlib.Algebra.GroupWithZero.Nat
import Mathlib.Data.List.Basic

/-!
Searching a list for a pattern again and again, each time behind the last occurrence.
Elements have sizes, and offsets are sums of sizes. A pattern whose first element does
not come back in it has no overlapping occurrences, so that none is missed.
-/
namespace Ketebe.Lib.Occurrences

variable {α : Type*} (size : α → ℕ)

def extent (list : List α) : ℕ := (list.map size).sum

@[simp] theorem extent_nil : extent size [] = 0 := rfl

@[simp] theorem extent_cons (a : α) (list : List α) :
    extent size (a :: list) = size a + extent size list := by
  rw [extent, List.map_cons, List.sum_cons, extent]

@[simp] theorem extent_append (first second : List α) :
    extent size (first ++ second) = extent size first + extent size second := by
  rw [extent, List.map_append, List.sum_append, extent, extent]

theorem extent_flatten (lists : List (List α)) :
    extent size lists.flatten = extent (extent size) lists := by
  induction lists with
  | nil => rfl
  | cons list rest ih => rw [List.flatten_cons, extent_append, extent_cons, ih]

theorem extent_pos {list : List α} (hsize : ∀ a ∈ list, 0 < size a) (h : list ≠ []) :
    0 < extent size list := by
  cases list with
  | nil => exact absurd rfl h
  | cons a rest =>
    rw [extent_cons]
    exact Nat.add_pos_left (hsize a (List.mem_cons_self ..)) _

/-- Where elements have a size, a longer prefix has a larger extent. -/
theorem extent_lt_of_prefix {shorter longer : List α} (hsize : ∀ a ∈ longer, 0 < size a)
    (hstarts : shorter <+: longer) (hlength : shorter.length < longer.length) :
    extent size shorter < extent size longer := by
  obtain ⟨rest, rfl⟩ := hstarts
  cases rest with
  | nil => simp at hlength
  | cons a rest =>
    have ha := hsize a (List.mem_append_right _ (List.mem_cons_self ..))
    rw [extent_append, extent_cons]
    omega

variable [DecidableEq α] (pattern : List α)

/-- What precedes and what follows the first occurrence. -/
def splitAtFirst : List α → Option (List α × List α)
  | [] => none
  | a :: rest =>
      if pattern.isPrefixOf (a :: rest) then some ([], (a :: rest).drop pattern.length)
      else (splitAtFirst rest).map fun split => (a :: split.1, split.2)

/-- The ends of the occurrences that a repeated search finds, with at most `fuel` searches. -/
def endsFrom : ℕ → ℕ → List α → List ℕ
  | 0, _, _ => []
  | fuel + 1, start, text =>
      match splitAtFirst pattern text with
      | none => []
      | some (before, after) =>
          (start + extent size before + extent size pattern) ::
            endsFrom fuel (start + extent size before + extent size pattern) after

/-- No search finds more occurrences than there are elements. -/
def ends (text : List α) : List ℕ := endsFrom size pattern text.length 0 text

variable {size pattern} {text before after : List α}

theorem splitAtFirst_some (h : splitAtFirst pattern text = some (before, after)) :
    text = before ++ pattern ++ after := by
  induction text generalizing before with
  | nil => cases h
  | cons a rest ih =>
    unfold splitAtFirst at h
    split at h
    · rename_i hprefix
      cases h
      obtain ⟨tail, htail⟩ := List.isPrefixOf_iff_prefix.mp hprefix
      rw [← htail, List.drop_left, List.nil_append]
    · obtain ⟨⟨early, late⟩, hsplit, heq⟩ := Option.map_eq_some_iff.mp h
      cases heq
      rw [ih hsplit]
      rfl

/-- No occurrence starts before the first one. -/
theorem splitAtFirst_le {early late : List α}
    (h : splitAtFirst pattern text = some (before, after)) (htext : text = early ++ pattern ++ late) :
    before.length ≤ early.length := by
  induction text generalizing before early with
  | nil => cases h
  | cons a rest ih =>
    unfold splitAtFirst at h
    split at h
    · cases h
      exact Nat.zero_le _
    · rename_i hprefix
      obtain ⟨⟨first, tail⟩, hsplit, heq⟩ := Option.map_eq_some_iff.mp h
      cases heq
      cases early with
      | nil =>
        have hoccurs : pattern <+: a :: rest := ⟨late, by rw [htext, List.nil_append]⟩
        exact absurd (List.isPrefixOf_iff_prefix.mpr hoccurs) hprefix
      | cons b early =>
        rw [List.cons_append, List.cons_append] at htext
        obtain ⟨-, hrest⟩ := List.cons.inj htext
        exact Nat.succ_le_succ (ih hsplit hrest)

theorem splitAtFirst_none (hpattern : pattern ≠ []) (h : splitAtFirst pattern text = none)
    (early late : List α) : text ≠ early ++ pattern ++ late := by
  induction text generalizing early with
  | nil =>
    intro htext
    exact hpattern (List.append_eq_nil_iff.mp (List.append_eq_nil_iff.mp htext.symm).1).2
  | cons a rest ih =>
    intro htext
    unfold splitAtFirst at h
    split at h
    · cases h
    · rename_i hprefix
      cases early with
      | nil =>
        have hoccurs : pattern <+: a :: rest := ⟨late, by rw [htext, List.nil_append]⟩
        exact absurd (List.isPrefixOf_iff_prefix.mpr hoccurs) hprefix
      | cons b early =>
        rw [List.cons_append, List.cons_append] at htext
        obtain ⟨-, hrest⟩ := List.cons.inj htext
        exact ih (Option.map_eq_none_iff.mp h) early hrest

omit [DecidableEq α] in
/-- Of two occurrences of a pattern whose head does not come back, the later one starts
where the earlier one has ended. -/
theorem occurrences_apart {head : α} {body early late : List α} (hbody : head ∉ body)
    (htext : before ++ (head :: body) ++ after = early ++ (head :: body) ++ late)
    (hlt : before.length < early.length) : ∃ middle, early = before ++ (head :: body) ++ middle := by
  have hprefix : before <+: early := by
    have hwhole : before <+: early ++ (head :: body) ++ late :=
      ⟨(head :: body) ++ after, by rw [← htext, List.append_assoc]⟩
    have hearly : early <+: early ++ (head :: body) ++ late :=
      ⟨(head :: body) ++ late, by rw [List.append_assoc]⟩
    exact List.prefix_of_prefix_length_le hwhole hearly (Nat.le_of_lt hlt)
  obtain ⟨gap, rfl⟩ := hprefix
  rw [List.append_assoc, List.append_assoc, List.append_assoc, List.append_cancel_left_eq] at htext
  cases gap with
  | nil => simp at hlt
  | cons a gap =>
    rw [List.cons_append, List.cons_append, List.cons.injEq] at htext
    obtain ⟨rfl, htail⟩ := htext
    -- the next head would have to stand in the body
    rcases List.append_eq_append_iff.mp htail with ⟨rest, hgap, -⟩ | ⟨rest, hsplit, hrest⟩
    · exact ⟨rest, by rw [hgap, List.append_assoc]; rfl⟩
    · cases rest with
      | nil =>
        refine ⟨[], ?_⟩
        rw [List.append_nil] at hsplit
        rw [hsplit, List.append_nil]
      | cons b rest =>
        obtain ⟨rfl, -⟩ := List.cons.inj hrest
        exact absurd (hsplit ▸ List.mem_append_right _ (List.mem_cons_self ..)) hbody

theorem mem_endsFrom {head : α} {body : List α} (hbody : head ∉ body) {fuel start : ℕ}
    (hfuel : text.length ≤ fuel) {position : ℕ} :
    position ∈ endsFrom size (head :: body) fuel start text ↔
      ∃ before after, text = before ++ (head :: body) ++ after ∧
        position = start + extent size (before ++ (head :: body)) := by
  induction fuel generalizing start text with
  | zero =>
    have hnil : text = [] := List.length_eq_zero_iff.mp (Nat.le_zero.mp hfuel)
    subst hnil
    constructor
    · exact fun h => absurd h List.not_mem_nil
    · rintro ⟨before, after, htext, -⟩
      simp at htext
  | succ fuel ih =>
    unfold endsFrom
    cases hsplit : splitAtFirst (head :: body) text with
    | none =>
      constructor
      · exact fun h => absurd h List.not_mem_nil
      · rintro ⟨before, after, htext, -⟩
        exact absurd htext (splitAtFirst_none (List.cons_ne_nil _ _) hsplit before after)
    | some split =>
      obtain ⟨first, rest⟩ := split
      have hfirst := splitAtFirst_some hsplit
      have hrest : rest.length ≤ fuel := by
        have hlength := congrArg List.length hfirst
        simp only [List.length_append, List.length_cons] at hlength
        omega
      dsimp only
      rw [List.mem_cons, ih hrest]
      constructor
      · rintro (rfl | ⟨before, after, rfl, rfl⟩)
        · exact ⟨first, rest, hfirst, by rw [extent_append, Nat.add_assoc]⟩
        · refine ⟨first ++ (head :: body) ++ before, after, by rw [hfirst]; simp, ?_⟩
          simp only [extent_append]
          omega
      · rintro ⟨before, after, htext, rfl⟩
        have hle := splitAtFirst_le hsplit htext
        rcases Nat.eq_or_lt_of_le hle with heq | hlt
        · have hsame : first = before := by
            have hboth := hfirst.symm.trans htext
            rw [List.append_assoc, List.append_assoc] at hboth
            exact (List.append_inj hboth heq).1
          rw [hsame]
          exact .inl (by rw [extent_append, Nat.add_assoc])
        · obtain ⟨middle, rfl⟩ := occurrences_apart hbody (hfirst.symm.trans htext) hlt
          refine .inr ⟨middle, after, ?_, by simp only [extent_append]; omega⟩
          have hboth := hfirst.symm.trans htext
          rw [List.append_assoc (first ++ (head :: body)), List.append_assoc (first ++ _)] at hboth
          exact List.append_cancel_left hboth

/-- The repeated search finds the ends of all occurrences. -/
theorem mem_ends {head : α} {body : List α} (hbody : head ∉ body) {position : ℕ} :
    position ∈ ends size (head :: body) text ↔ ∃ before after,
      text = before ++ (head :: body) ++ after ∧
        position = extent size (before ++ (head :: body)) := by
  rw [ends, mem_endsFrom hbody (Nat.le_refl _)]
  simp only [Nat.zero_add]

end Ketebe.Lib.Occurrences
