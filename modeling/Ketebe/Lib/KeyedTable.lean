import Mathlib.Order.Compare
import Std.Data.ExtTreeMap

/-!
Tables whose values carry their own key, as a catalog that is stored as the list
of its values.
-/
namespace Ketebe.Lib.KeyedTable

variable {K V : Type*} [LinearOrder K]

scoped instance instTransOrd : Std.TransOrd K := inferInstance

/-- Every value stands under its own key. -/
def Keyed (key : V → K) (table : Std.ExtTreeMap K V compare) : Prop :=
  ∀ (k : K) (v : V), table[k]? = some v → key v = k

def ofValues (key : V → K) (values : List V) : Std.ExtTreeMap K V compare :=
  values.foldl (fun table value => table.insert (key value) value) ∅

def values (table : Std.ExtTreeMap K V compare) : List V := table.toList.map Prod.snd

variable {key : V → K} {table : Std.ExtTreeMap K V compare}

theorem keyed_empty : Keyed key ∅ := by
  intro k v h
  rw [Std.ExtTreeMap.getElem?_empty] at h
  cases h

theorem nodup_toList (table : Std.ExtTreeMap K V compare) : table.toList.Nodup :=
  Std.ExtTreeMap.distinct_keys_toList.imp fun hne hsame =>
    hne (compare_eq_iff_eq.mpr (congrArg Prod.fst hsame))

theorem mem_values {value : V} : value ∈ values table ↔ ∃ k : K, table[k]? = some value := by
  simp only [values, List.mem_map, Prod.exists, exists_eq_right,
    Std.ExtTreeMap.mem_toList_iff_getElem?_eq_some]

namespace Keyed

theorem insert (h : Keyed key table) {value : V} {k : K} (hkey : key value = k) :
    Keyed key (table.insert k value) := by
  intro other v hv
  rw [Std.ExtTreeMap.getElem?_insert] at hv
  split at hv
  · rename_i hsame
    rw [← Option.some.inj hv, hkey, compare_eq_iff_eq.mp hsame]
  · exact h other v hv

theorem erase (h : Keyed key table) (k : K) : Keyed key (table.erase k) := by
  intro other v hv
  rw [Std.ExtTreeMap.getElem?_erase] at hv
  split at hv
  · cases hv
  · exact h other v hv

theorem mem_values (h : Keyed key table) {value : V} :
    value ∈ values table ↔ table[key value]? = some value := by
  rw [KeyedTable.mem_values]
  constructor
  · intro ⟨k, hk⟩
    rwa [h k value hk]
  · exact fun hvalue => ⟨_, hvalue⟩

theorem nodup (h : Keyed key table) : ((values table).map key).Nodup := by
  rw [values, List.map_map]
  refine List.pairwise_map.mpr ((Std.ExtTreeMap.distinct_keys_toList).imp_of_mem
    fun {a b} ha hb hne heq => hne ?_)
  rw [Std.ExtTreeMap.mem_toList_iff_getElem?_eq_some] at ha hb
  simp only [Function.comp_apply, h _ _ ha, h _ _ hb] at heq
  exact compare_eq_iff_eq.mpr heq

end Keyed

/-- No two values agree on the field. -/
def UniqueBy {F : Type*} (field : V → F) (table : Std.ExtTreeMap K V compare) : Prop :=
  ∀ (k k' : K) (v v' : V), table[k]? = some v → table[k']? = some v' → field v = field v' → k = k'

namespace UniqueBy

variable {F : Type*} {field : V → F}

theorem empty : UniqueBy field (∅ : Std.ExtTreeMap K V compare) := by
  intro k k' v v' h
  rw [Std.ExtTreeMap.getElem?_empty] at h
  cases h

/-- A value may be put where only the value it replaces agrees with it. -/
theorem insert (h : UniqueBy field table) {k : K} {value : V}
    (hother : ∀ (k' : K) (v : V), table[k']? = some v → field v = field value → k' = k) :
    UniqueBy field (table.insert k value) := by
  intro first second v w hv hw heq
  rw [Std.ExtTreeMap.getElem?_insert] at hv hw
  split at hv
  · rename_i hfirst
    obtain rfl := compare_eq_iff_eq.mp hfirst
    split at hw
    · rename_i hsecond
      exact compare_eq_iff_eq.mp hsecond
    · rw [← Option.some.inj hv] at heq
      exact (hother second w hw heq.symm).symm
  · split at hw
    · rename_i hsecond
      obtain rfl := compare_eq_iff_eq.mp hsecond
      rw [← Option.some.inj hw] at heq
      exact hother first v hv heq
    · exact h first second v w hv hw heq

theorem erase (h : UniqueBy field table) (k : K) : UniqueBy field (table.erase k) := by
  have hold : ∀ (k' : K) (v : V), (table.erase k)[k']? = some v → table[k']? = some v := by
    intro k' v hv
    rw [Std.ExtTreeMap.getElem?_erase] at hv
    split at hv
    · cases hv
    · exact hv
  exact fun first second v w hv hw => h first second v w (hold first v hv) (hold second w hw)

end UniqueBy

/-- Entries with distinct keys, each put under its key over what was there. -/
theorem getElem?_foldl_put [DecidableEq K] {E : Type*} (keyOf : E → K) (put : E → Option V → V) {entries : List E}
    (hnodup : (entries.map keyOf).Nodup) (init : Std.ExtTreeMap K V compare) (k : K) :
    (entries.foldl (fun table entry =>
        table.insert (keyOf entry) (put entry table[keyOf entry]?)) init)[k]? =
      (entries.find? fun entry => keyOf entry = k).elim init[k]? fun entry =>
        some (put entry init[k]?) := by
  induction entries generalizing init with
  | nil => rfl
  | cons head rest ih =>
    obtain ⟨hnew, hrest⟩ := List.nodup_cons.mp hnodup
    rw [List.foldl_cons, ih hrest, Std.ExtTreeMap.getElem?_insert, List.find?_cons]
    by_cases hkey : keyOf head = k
    · have hnone : (rest.find? fun entry => decide (keyOf entry = k)) = none := by
        rw [List.find?_eq_none]
        intro other hother
        simp only [decide_eq_true_eq]
        intro hsame
        exact hnew (hkey.trans hsame.symm ▸ List.mem_map_of_mem hother)
      rw [hnone, if_pos (compare_eq_iff_eq.mpr hkey), decide_eq_true hkey, hkey]
      rfl
    · rw [if_neg fun h => hkey (compare_eq_iff_eq.mp h), decide_eq_false hkey]

/-- Among inserted values with distinct keys each is found under its key. -/
theorem getElem?_foldl_insert [DecidableEq K] {inserted : List V} (hnodup : (inserted.map key).Nodup)
    (init : Std.ExtTreeMap K V compare) (k : K) :
    (inserted.foldl (fun table value => table.insert (key value) value) init)[k]? =
      (inserted.find? fun value => key value = k).or init[k]? := by
  rw [getElem?_foldl_put key (fun value _ => value) hnodup]
  cases inserted.find? fun value => decide (key value = k) <;> rfl

/-- A table is rebuilt from its values. -/
theorem ofValues_values (h : Keyed key table) : ofValues key (values table) = table := by
  refine Std.ExtTreeMap.ext_getElem? fun k => ?_
  rw [ofValues, getElem?_foldl_insert h.nodup, Std.ExtTreeMap.getElem?_empty, Option.or_none]
  cases hfind : (values table).find? fun value => decide (key value = k) with
  | some value =>
    have hkey : key value = k := by simpa using List.find?_some hfind
    have hvalue := h.mem_values.mp (List.mem_of_find?_eq_some hfind)
    rw [← hkey, hvalue]
  | none =>
    cases hentry : table[k]? with
    | none => rfl
    | some value =>
      have hmem := KeyedTable.mem_values.mpr ⟨k, hentry⟩
      have hnone := List.find?_eq_none.mp hfind value hmem
      simp [h k value hentry] at hnone

theorem length_values (table : Std.ExtTreeMap K V compare) :
    (values table).length = table.size := by
  rw [values, List.length_map, Std.ExtTreeMap.length_toList]

end Ketebe.Lib.KeyedTable
