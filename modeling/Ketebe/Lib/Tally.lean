import Ketebe.Lib.KeyedTable
import Mathlib.Algebra.BigOperators.Group.List.Basic
import Mathlib.Algebra.GroupWithZero.Nat
import Mathlib.Algebra.Order.BigOperators.Group.List
import Mathlib.Algebra.Order.Group.Int
import Mathlib.Algebra.Ring.Int.Defs

/-!
Totals over the values of a table. Putting one value changes the total by the weight of
that value, less the weight of the value that it replaces.
-/
namespace Ketebe.Lib.Tally

open KeyedTable

variable {K V : Type} [LinearOrder K]

/-- The sum of the weights of all values. -/
def total (weight : V → ℤ) (table : Std.ExtTreeMap K V compare) : ℤ :=
  (table.toList.map fun entry => weight entry.2).sum

/-- How many values are of a kind. -/
def number (kind : V → Bool) (table : Std.ExtTreeMap K V compare) : ℕ :=
  table.toList.countP fun entry => kind entry.2

/-- The entries of the other keys. -/
def others (table : Std.ExtTreeMap K V compare) (key : K) : List (K × V) :=
  table.toList.filter fun entry => entry.1 ≠ key

variable {weight : V → ℤ} {table : Std.ExtTreeMap K V compare} {key : K} {value : V}

theorem mem_others {entry : K × V} :
    entry ∈ others table key ↔ table[entry.1]? = some entry.2 ∧ entry.1 ≠ key := by
  rw [others, List.mem_filter, Std.ExtTreeMap.mem_toList_iff_getElem?_eq_some, decide_eq_true_eq]

/-- A table has the entry of a key and those of the other keys. -/
theorem toList_perm (h : table[key]? = some value) :
    table.toList.Perm ((key, value) :: others table key) := by
  have hnodup : ((key, value) :: others table key).Nodup :=
    List.nodup_cons.mpr ⟨fun hmem => (mem_others.mp hmem).2 rfl, (nodup_toList table).filter _⟩
  refine (List.perm_ext_iff_of_nodup (nodup_toList table) hnodup).mpr fun entry => ?_
  obtain ⟨other, found⟩ := entry
  rw [Std.ExtTreeMap.mem_toList_iff_getElem?_eq_some, List.mem_cons, mem_others, Prod.mk.injEq]
  by_cases hsame : other = key
  · subst hsame
    rw [h, Option.some.injEq]
    exact ⟨fun heq => .inl ⟨rfl, heq.symm⟩, fun heq => (heq.resolve_right fun h => h.2 rfl).2.symm⟩
  · exact ⟨fun hfound => .inr ⟨hfound, hsame⟩, fun heq => (heq.resolve_left fun h => hsame h.1).1⟩

theorem others_of_none (h : table[key]? = none) : others table key = table.toList := by
  refine List.filter_eq_self.mpr fun entry hentry => decide_eq_true ?_
  intro hsame
  have hfound := Std.ExtTreeMap.mem_toList_iff_getElem?_eq_some.mp hentry
  rw [hsame, h] at hfound
  cases hfound

theorem others_insert : (others (table.insert key value) key).Perm (others table key) := by
  refine (List.perm_ext_iff_of_nodup ((nodup_toList _).filter _) ((nodup_toList _).filter _)).mpr
    fun entry => ?_
  have hentry : entry ∈ others (table.insert key value) key ↔ _ := mem_others
  have hbefore : entry ∈ others table key ↔ _ := mem_others
  rw [others] at hentry hbefore
  rw [hentry, hbefore, Std.ExtTreeMap.getElem?_insert]
  by_cases hsame : entry.1 = key
  · exact iff_of_false (fun h => h.2 hsame) fun h => h.2 hsame
  · rw [if_neg fun h => hsame (compare_eq_iff_eq.mp h).symm]

theorem total_perm (h : table[key]? = some value) :
    total weight table = weight value + ((others table key).map fun entry => weight entry.2).sum := by
  rw [total, ((toList_perm h).map _).sum_eq, List.map_cons, List.sum_cons]

theorem total_insert {old : V} (h : table[key]? = some old) :
    total weight (table.insert key value) = total weight table + weight value - weight old := by
  have hnew : (table.insert key value)[key]? = some value := Std.ExtTreeMap.getElem?_insert_self
  rw [total_perm hnew, total_perm h, (others_insert.map _).sum_eq]
  omega

theorem total_insert_new (h : table[key]? = none) :
    total weight (table.insert key value) = total weight table + weight value := by
  have hnew : (table.insert key value)[key]? = some value := Std.ExtTreeMap.getElem?_insert_self
  rw [total_perm hnew, (others_insert.map _).sum_eq, others_of_none h, total, add_comm]

theorem total_congr {other : V → ℤ}
    (h : ∀ (key : K) (value : V), table[key]? = some value → weight value = other value) :
    total weight table = total other table := by
  unfold total
  refine congrArg List.sum (List.map_congr_left fun entry hentry => h entry.1 entry.2 ?_)
  exact Std.ExtTreeMap.mem_toList_iff_getElem?_eq_some.mp hentry

/-- No weight is more than a total of weights that are not negative. -/
theorem le_total (hnonneg : ∀ (key : K) (value : V), table[key]? = some value → 0 ≤ weight value)
    (h : table[key]? = some value) : weight value ≤ total weight table := by
  rw [total_perm h]
  have hothers : 0 ≤ ((others table key).map fun entry => weight entry.2).sum := by
    refine List.sum_nonneg fun w hw => ?_
    obtain ⟨entry, hentry, rfl⟩ := List.mem_map.mp hw
    exact hnonneg entry.1 entry.2 (mem_others.mp hentry).1
  omega

theorem total_kind {kind : V → Bool} :
    total (fun value => if kind value then 1 else 0) table = number kind table := by
  unfold total number
  induction table.toList with
  | nil => rfl
  | cons entry rest ih =>
    rw [List.map_cons, List.sum_cons, ih, List.countP_cons]
    cases hkind : kind entry.2 <;> simp [hkind, add_comm]

theorem number_insert_new (kind : V → Bool) (h : table[key]? = none) :
    number kind (table.insert key value) = number kind table + (kind value).toNat := by
  have hnew : (table.insert key value)[key]? = some value := Std.ExtTreeMap.getElem?_insert_self
  rw [number, (toList_perm hnew).countP_eq, List.countP_cons, others_insert.countP_eq,
    others_of_none h, number]
  cases kind value <;> rfl

theorem toList_erase : (table.erase key).toList.Perm (others table key) := by
  refine (List.perm_ext_iff_of_nodup (nodup_toList _) ((nodup_toList _).filter _)).mpr
    fun entry => ?_
  have hentry : entry ∈ others table key ↔ _ := mem_others
  rw [others] at hentry
  rw [hentry, ← Prod.mk.eta (p := entry), Std.ExtTreeMap.mem_toList_iff_getElem?_eq_some,
    Std.ExtTreeMap.getElem?_erase]
  by_cases hsame : key = entry.1
  · rw [if_pos (compare_eq_iff_eq.mpr hsame)]
    exact iff_of_false nofun fun h => h.2 hsame.symm
  · rw [if_neg fun h => hsame (compare_eq_iff_eq.mp h)]
    exact ⟨fun h => ⟨h, fun heq => hsame heq.symm⟩, fun h => h.1⟩

theorem number_erase_le (kind : V → Bool) : number kind (table.erase key) ≤ number kind table := by
  rw [number, toList_erase.countP_eq, others, number]
  exact List.filter_sublist.countP_le
/-! ### Counting in a list -/

theorem countP_eraseIdx {α : Type} {list : List α} {index : ℕ} {old : α} (kind : α → Bool)
    (h : list[index]? = some old) :
    (list.eraseIdx index).countP kind + (kind old).toNat = list.countP kind := by
  induction list generalizing index with
  | nil => cases h
  | cons head rest ih =>
    cases index with
    | zero =>
      obtain rfl := Option.some.inj h
      rw [List.eraseIdx_zero, List.tail_cons, List.countP_cons]
      cases kind head <;> rfl
    | succ index =>
      rw [List.eraseIdx_cons_succ, List.countP_cons, List.countP_cons, ← ih h]
      omega

theorem countP_set {α : Type} {list : List α} {index : ℕ} {old new : α} (kind : α → Bool)
    (h : list[index]? = some old) : (list.set index new).countP kind + (kind old).toNat =
      list.countP kind + (kind new).toNat := by
  induction list generalizing index with
  | nil => cases h
  | cons head rest ih =>
    cases index with
    | zero =>
      cases h
      rw [List.set_cons_zero, List.countP_cons, List.countP_cons]
      cases kind old <;> cases kind new <;> simp
    | succ index =>
      have hrest := ih h
      rw [List.set_cons_succ, List.countP_cons, List.countP_cons]
      omega

/-- Replacing an element changes a sum by the new weight less the old one. -/
theorem sum_map_set {α : Type} {list : List α} {index : ℕ} {old new : α} (weight : α → ℕ)
    (h : list[index]? = some old) : ((list.set index new).map weight).sum + weight old =
      (list.map weight).sum + weight new := by
  induction list generalizing index with
  | nil => cases h
  | cons head rest ih =>
    cases index with
    | zero =>
      cases h
      rw [List.set_cons_zero, List.map_cons, List.map_cons, List.sum_cons, List.sum_cons]
      omega
    | succ index =>
      have hrest := ih h
      rw [List.set_cons_succ, List.map_cons, List.map_cons, List.sum_cons, List.sum_cons]
      omega

/-- Elements of a kind whose members weigh at least one are no more than the total weight. -/
theorem countP_le_sum {α : Type} {list : List α} {kind : α → Bool} {weight : α → ℕ}
    (h : ∀ a ∈ list, kind a → 1 ≤ weight a) : list.countP kind ≤ (list.map weight).sum := by
  induction list with
  | nil => exact Nat.le_refl 0
  | cons head rest ih =>
    have hrest := ih fun a ha => h a (List.mem_cons_of_mem _ ha)
    have hhead := h head (List.mem_cons_self ..)
    rw [List.countP_cons, List.map_cons, List.sum_cons]
    cases hkind : kind head with
    | false =>
      rw [if_neg Bool.false_ne_true]
      omega
    | true =>
      have hone := hhead hkind
      rw [if_pos rfl]
      omega

end Ketebe.Lib.Tally
