import Mathlib.Data.List.Induction
import Mathlib.Data.List.Sort

/-!
The best elements of a list, kept one insertion at a time: every element is
sorted into the list kept so far, and the last one is dropped when there are too
many. What is kept is a prefix of the sorted list, and pages read one after
the other from such prefixes cover it.
-/
namespace Ketebe.Lib.BoundedSort

variable {α : Type*}

def keepInsert (le : α → α → Bool) (bound : ℕ) (kept : List α) (a : α) : List α :=
  let sorted := (kept ++ [a]).mergeSort le
  if bound < sorted.length then sorted.dropLast else sorted

/-- A total preorder that tells the members of a list apart. -/
structure Orders (le : α → α → Bool) (l : List α) : Prop where
  trans : ∀ a b c, le a b → le b c → le a c
  total : ∀ a b, le a b || le b a
  antisymm : ∀ a ∈ l, ∀ b ∈ l, le a b → le b a → a = b

section Bounded

variable {le : α → α → Bool} {l l' : List α}

theorem Orders.mono (h : Orders le l) (hsub : l' ⊆ l) : Orders le l' :=
  ⟨h.trans, h.total, fun a ha b hb => h.antisymm a (hsub ha) b (hsub hb)⟩

theorem Orders.pairwise_mergeSort (h : Orders le l) (xs : List α) :
    (xs.mergeSort le).Pairwise fun a b => le a b :=
  List.pairwise_mergeSort h.trans h.total xs

/-- What is kept of an ordered list stands before what is dropped. -/
theorem pairwise_take_drop {r : α → α → Prop} {xs : List α} (h : xs.Pairwise r) (count : ℕ) :
    ∀ kept ∈ xs.take count, ∀ dropped ∈ xs.drop count, r kept dropped := by
  rw [← List.take_append_drop count xs, List.pairwise_append] at h
  exact h.2.2

theorem isLE_or_isLE (cmp : α → α → Ordering) [Std.OrientedCmp cmp] (a b : α) :
    (cmp a b).isLE || (cmp b a).isLE := by
  rcases hcmp : cmp a b with _ | _ | _
  · simp
  · simp
  · have hback : cmp b a = .lt := Std.OrientedCmp.gt_iff_lt.mp hcmp
    simp [hback]

theorem pairwise_mergeSort_isLE (cmp : α → α → Ordering) [Std.TransCmp cmp] (xs : List α) :
    (xs.mergeSort fun a b => (cmp a b).isLE).Pairwise fun a b => (cmp a b).isLE :=
  List.pairwise_mergeSort (fun _ _ _ => Std.TransCmp.isLE_trans) (isLE_or_isLE cmp) xs

theorem orders_isLE {cmp : α → α → Ordering} [Std.TransCmp cmp]
    (hanti : ∀ a ∈ l, ∀ b ∈ l, (cmp a b).isLE → (cmp b a).isLE → a = b) :
    Orders (fun a b => (cmp a b).isLE) l :=
  ⟨fun _ _ _ => Std.TransCmp.isLE_trans, isLE_or_isLE cmp, hanti⟩

/-- A list has one sorted permutation. -/
theorem Orders.mergeSort_eq (h : Orders le l) (hsorted : l'.Pairwise fun a b => le a b)
    (hperm : l.Perm l') : l.mergeSort le = l' := by
  apply List.Perm.eq_of_pairwise ?_ (h.pairwise_mergeSort l) hsorted
    ((List.mergeSort_perm l le).trans hperm)
  intro a b ha hb hab hba
  exact h.antisymm a (List.mem_mergeSort.mp ha) b (hperm.mem_iff.mpr hb) hab hba

theorem Orders.mergeSort_filter (h : Orders le l) (p : α → Bool) :
    (l.filter p).mergeSort le = (l.mergeSort le).filter p := by
  apply (h.mono (List.filter_subset_self l)).mergeSort_eq
  · exact (h.pairwise_mergeSort l).sublist List.filter_sublist
  · exact ((List.mergeSort_perm l le).filter p).symm

/-- Sorted insertion into a prefix changes a shorter prefix of it alike. -/
theorem take_orderedInsert_take (r : α → α → Prop) [DecidableRel r] (a : α) (l : List α) (k : ℕ) :
    ((l.take k).orderedInsert r a).take k = (l.orderedInsert r a).take k := by
  induction l generalizing k with
  | nil => rw [List.take_nil]
  | cons b rest ih =>
    cases k with
    | zero => rw [List.take_zero, List.take_zero]
    | succ k =>
      rw [List.take_succ_cons]
      by_cases hle : r a b
      · have hshorter : (b :: rest.take k).take k = (b :: rest).take k := by
          rw [← List.take_succ_cons, List.take_take, Nat.min_eq_left (Nat.le_succ k)]
        rw [List.orderedInsert_cons_of_le r _ hle, List.orderedInsert_cons_of_le r _ hle,
          List.take_succ_cons, List.take_succ_cons, hshorter]
      · rw [List.orderedInsert_of_not_le r _ hle, List.orderedInsert_of_not_le r _ hle,
          List.take_succ_cons, List.take_succ_cons, ih]

theorem Orders.mergeSort_append_singleton {a : α} (h : Orders le (l ++ [a]))
    (hsorted : l.Pairwise fun a b => le a b) :
    (l ++ [a]).mergeSort le = l.orderedInsert (fun a b => le a b) a := by
  apply h.mergeSort_eq
  · have htotal : Std.Total fun a b => le a b = true := ⟨fun a b => by
      rw [← Bool.or_eq_true]
      exact h.total a b⟩
    have htrans : IsTrans α fun a b => le a b = true := ⟨h.trans⟩
    exact hsorted.orderedInsert a l
  · exact List.perm_append_comm.trans (List.perm_orderedInsert _ a l).symm

theorem Orders.keepInsert_take {a : α} {bound : ℕ} (h : Orders le (l ++ [a]))
    (hsorted : l.Pairwise fun a b => le a b) :
    keepInsert le bound (l.take bound) a = ((l ++ [a]).mergeSort le).take bound := by
  have hprefix : Orders le (l.take bound ++ [a]) := by
    apply h.mono
    intro b hb
    rcases List.mem_append.mp hb with hb | hb
    · exact List.mem_append_left _ (List.mem_of_mem_take hb)
    · exact List.mem_append_right _ hb
  have hinsert := hprefix.mergeSort_append_singleton (hsorted.sublist (List.take_sublist bound l))
  have hlength := List.orderedInsert_length (fun a b => le a b = true) (l.take bound) a
  rw [keepInsert, hinsert, h.mergeSort_append_singleton hsorted, ← take_orderedInsert_take]
  rw [List.length_take] at hlength
  by_cases hfull : bound ≤ l.length
  · rw [Nat.min_eq_left hfull] at hlength
    rw [hlength, if_pos (Nat.lt_succ_self bound), List.dropLast_eq_take, hlength]
    rfl
  · rw [Nat.min_eq_right (by omega)] at hlength
    rw [hlength, if_neg (by omega), List.take_of_length_le (by omega)]
    rw [List.take_of_length_le]
    rw [List.orderedInsert_length]
    omega

/-- Bounded insertion of all elements keeps the first ones of the sorted list. -/
theorem Orders.foldl_keepInsert (h : Orders le l) (bound : ℕ) :
    l.foldl (keepInsert le bound) [] = (l.mergeSort le).take bound := by
  induction l using List.reverseRecOn with
  | nil => rw [List.mergeSort_nil, List.take_nil, List.foldl_nil]
  | append_singleton l a ih =>
    have hfirst : Orders le l := h.mono (List.subset_append_left ..)
    have hperm : (l ++ [a]).Perm (l.mergeSort le ++ [a]) :=
      ((List.mergeSort_perm l le).symm).append_right [a]
    have hsorted : Orders le (l.mergeSort le ++ [a]) := h.mono hperm.symm.subset
    rw [List.foldl_append, ih hfirst, List.foldl_cons, List.foldl_nil,
      hsorted.keepInsert_take (h.pairwise_mergeSort l)]
    rw [hsorted.mergeSort_eq (h.pairwise_mergeSort _)
      (hperm.symm.trans (List.mergeSort_perm _ le).symm)]

end Bounded

/-- What follows an element of a strictly ordered list is what comes after it in the order. -/
theorem filter_eq_of_split {r : α → α → Prop} {before rest : List α} {a : α}
    (hsorted : (before ++ a :: rest).Pairwise r) (hasymm : ∀ b c, r b c → ¬r c b)
    (p : α → Bool) (hp : ∀ b, p b ↔ r a b) : (before ++ a :: rest).filter p = rest := by
  obtain ⟨-, hrest, hbefore⟩ := List.pairwise_append.mp hsorted
  obtain ⟨hafter, -⟩ := List.pairwise_cons.mp hrest
  have hfirst : before.filter p = [] := by
    rw [List.filter_eq_nil_iff]
    intro b hb hpb
    exact hasymm a b ((hp b).mp hpb) (hbefore b hb a (List.mem_cons_self ..))
  have hself : ¬p a := fun hpa => hasymm a a ((hp a).mp hpa) ((hp a).mp hpa)
  rw [List.filter_append, hfirst, List.nil_append, List.filter_cons_of_neg hself]
  exact List.filter_eq_self.mpr fun b hb => (hp b).mpr (hafter b hb)

/-- A strictly ordered list is determined by its elements. -/
theorem eq_of_pairwise_of_mem {r : α → α → Prop} {l l' : List α} (h : l.Pairwise r)
    (h' : l'.Pairwise r) (hasymm : ∀ b c, r b c → ¬r c b) (hmem : ∀ a, a ∈ l ↔ a ∈ l') : l = l' := by
  have hne {b c : α} (hbc : r b c) : b ≠ c := fun heq => hasymm b c hbc (heq ▸ heq ▸ hbc)
  have hperm := (List.perm_ext_iff_of_nodup (h.imp hne) (h'.imp hne)).mpr hmem
  exact hperm.eq_of_pairwise (fun b c _ _ hbc hcb => absurd hcb (hasymm b c hbc)) h h'

/-! ### Pages -/

section Pages

variable {κ ε : Type*}

/-- Reads pages, each with one element more than it keeps, until one has no
such element. A page starts behind the last element kept. -/
def readPages (fetch : ℕ → Option κ → Except ε (List α)) (cursor : α → κ) (size : ℕ → ℕ) :
    ℕ → ℕ → Option κ → Except ε (Option (List α))
  | 0, _, _ => pure none
  | fuel + 1, page, after => do
    let found ← fetch (size page + 1) after
    let kept := found.take (size page)
    match if size page < found.length then kept.getLast? else none with
    | none => pure (some kept)
    | some last => do
      let rest ← readPages fetch cursor size fuel (page + 1) (some (cursor last))
      pure (rest.map (kept ++ ·))

/-- Reading from a position in the list returns what follows the position. -/
structure Serves (fetch : ℕ → Option κ → Except ε (List α)) (cursor : α → κ) (l : List α) :
    Prop where
  start : ∀ bound, 0 < bound → fetch bound none = .ok (l.take bound)
  after : ∀ before a rest, l = before ++ a :: rest → ∀ bound, 0 < bound →
    fetch bound (some (cursor a)) = .ok (rest.take bound)

theorem readPages_suffix {fetch : ℕ → Option κ → Except ε (List α)} {cursor : α → κ} {l : List α}
    (h : Serves fetch cursor l) {size : ℕ → ℕ} (hsize : ∀ page, 0 < size page) (fuel page : ℕ)
    (after : Option κ) (before rest : List α) (hsplit : l = before ++ rest)
    (hfetch : ∀ bound, 0 < bound → fetch bound after = .ok (rest.take bound))
    (hfuel : rest.length < fuel) :
    readPages fetch cursor size fuel page after = .ok (some rest) := by
  induction fuel generalizing page after before rest with
  | zero => omega
  | succ fuel ih =>
    have hpositive := hsize page
    rw [readPages, hfetch _ (Nat.succ_pos _)]
    show (match if size page < (rest.take (size page + 1)).length then
        ((rest.take (size page + 1)).take (size page)).getLast? else none with
      | none => pure (some ((rest.take (size page + 1)).take (size page)))
      | some last => _) = _
    have hkept : (rest.take (size page + 1)).take (size page) = rest.take (size page) := by
      rw [List.take_take, Nat.min_eq_left (Nat.le_succ _)]
    rw [hkept, List.length_take]
    by_cases hmore : size page < rest.length
    · -- The page is full: its last element is where the next one starts.
      obtain ⟨init, last, hlast⟩ : ∃ init last, rest.take (size page) = init ++ [last] := by
        rcases List.eq_nil_or_concat (rest.take (size page)) with hnil | ⟨init, last, hconcat⟩
        · have hlength := congrArg List.length hnil
          rw [List.length_take, List.length_nil] at hlength
          omega
        · exact ⟨init, last, by rw [hconcat, List.concat_eq_append]⟩
      have hrest : rest = init ++ last :: rest.drop (size page) := by
        calc rest = rest.take (size page) ++ rest.drop (size page) := (List.take_append_drop ..).symm
          _ = init ++ last :: rest.drop (size page) := by
            rw [hlast, List.append_assoc, List.singleton_append]
      have hbefore : l = (before ++ init) ++ last :: rest.drop (size page) := by
        rw [hsplit, List.append_assoc, ← hrest]
      have hnext := ih (page + 1) (some (cursor last)) (before ++ rest.take (size page))
        (rest.drop (size page)) (by rw [hsplit, List.append_assoc, List.take_append_drop])
        (h.after _ last _ hbefore) (by rw [List.length_drop]; omega)
      rw [if_pos (by omega), hlast, List.getLast?_append, List.getLast?_singleton]
      show (do
        let rest ← readPages fetch cursor size fuel (page + 1) (some (cursor last))
        pure (rest.map ((init ++ [last]) ++ ·))) = _
      rw [hnext, ← hlast]
      show Except.ok (some (rest.take (size page) ++ rest.drop (size page))) = _
      rw [List.take_append_drop]
    · rw [if_neg (by omega), List.take_of_length_le (by omega)]
      rfl

/-- The pages are the list, whatever their sizes are. -/
theorem readPages_eq {fetch : ℕ → Option κ → Except ε (List α)} {cursor : α → κ} {l : List α}
    (h : Serves fetch cursor l) {size : ℕ → ℕ} (hsize : ∀ page, 0 < size page) {fuel : ℕ}
    (hfuel : l.length < fuel) : readPages fetch cursor size fuel 0 none = .ok (some l) :=
  readPages_suffix h hsize fuel 0 none [] l rfl h.start hfuel

theorem readPages_error {fetch : ℕ → Option κ → Except ε (List α)} {error : ε}
    (h : ∀ bound, 0 < bound → fetch bound none = .error error) (cursor : α → κ) (size : ℕ → ℕ)
    {fuel : ℕ} (hfuel : 0 < fuel) : readPages fetch cursor size fuel 0 none = .error error := by
  cases fuel with
  | zero => omega
  | succ fuel =>
    rw [readPages, h _ (Nat.succ_pos _)]
    rfl

end Pages

end Ketebe.Lib.BoundedSort
