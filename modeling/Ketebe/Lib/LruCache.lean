import Mathlib.Data.List.Dedup
import Std.Data.ExtHashMap

/-!
Caches that forget what was used least recently. A queue of the keys stands beside the
entries: what is used goes to its end, and what is forgotten is taken from its front.
-/
namespace Ketebe.Lib

namespace LruCache

section Order

variable {K : Type} [DecidableEq K]

/-- Moves a key to the end of the queue. -/
def touch (order : List K) (key : K) : List K := order.erase key ++ [key]

/-- The keys in the order of their last use, after one more use. -/
theorem dedup_concat (past : List K) (key : K) :
    (past ++ [key]).dedup = touch past.dedup key := by
  induction past with
  | nil => rfl
  | cons head rest ih =>
    rw [List.cons_append, touch]
    by_cases hrest : head ∈ rest
    · rw [List.dedup_cons_of_mem (List.mem_append_left _ hrest), ih,
        List.dedup_cons_of_mem hrest, touch]
    · rw [List.dedup_cons_of_notMem hrest]
      by_cases hkey : head = key
      · subst hkey
        rw [List.dedup_cons_of_mem (List.mem_append_right _ List.mem_cons_self), ih, touch,
          List.erase_cons_head, List.erase_of_not_mem (List.mem_dedup.not.mpr hrest)]
      · have hnot : head ∉ rest ++ [key] := by
          rw [List.mem_append, List.mem_singleton]
          exact not_or.mpr ⟨hrest, hkey⟩
        rw [List.dedup_cons_of_notMem hnot, ih, touch,
          List.erase_cons_tail (beq_iff_eq.not.mpr hkey), List.cons_append]

theorem mem_touch {order : List K} {key other : K} (h : order.Nodup) :
    other ∈ touch order key ↔ other = key ∨ other ∈ order := by
  rw [touch, List.mem_append, List.mem_singleton, h.mem_erase_iff]
  by_cases hkey : other = key <;> simp [hkey]

theorem nodup_touch {order : List K} (key : K) (h : order.Nodup) : (touch order key).Nodup := by
  refine (h.erase key).append (List.nodup_singleton key) ?_
  rw [List.disjoint_singleton]
  exact h.not_mem_erase

/-- Moving a key to the end keeps a queue a suffix. -/
theorem touch_suffix {order whole : List K} (key : K) (hwhole : whole.Nodup)
    (h : order <:+ whole) : touch order key <:+ touch whole key := by
  obtain ⟨front, rfl⟩ := h
  by_cases hfront : key ∈ front
  · have hnot : key ∉ order := fun horder =>
      (List.nodup_append.mp hwhole).2.2 key hfront key horder rfl
    refine ⟨front.erase key, ?_⟩
    rw [touch, touch, List.erase_append_left _ hfront, List.erase_of_not_mem hnot,
      List.append_assoc]
  · refine ⟨front, ?_⟩
    rw [touch, touch, List.erase_append_right _ hfront, List.append_assoc]

theorem touch_of_not_mem {order : List K} {key : K} (h : key ∉ order) :
    touch order key = order ++ [key] := by
  rw [touch, List.erase_of_not_mem h]

end Order

end LruCache

structure LruCache (K V : Type) [DecidableEq K] [Hashable K] where
  capacity : ℕ
  entries : Std.ExtHashMap K V
  order : List K

namespace LruCache

variable {K V : Type} [DecidableEq K] [Hashable K]

def new (capacity : ℕ) : LruCache K V := ⟨capacity, ∅, []⟩

def get (cache : LruCache K V) (key : K) : Option V × LruCache K V :=
  match cache.entries[key]? with
  | none => (none, cache)
  | some value => (some value, { cache with order := touch cache.order key })

/-- Forgets keys from the front until there is room. -/
def evict (capacity : ℕ) (entries : Std.ExtHashMap K V) : List K → Std.ExtHashMap K V × List K
  | [] => (entries, [])
  | key :: rest =>
      if entries.size < capacity then (entries, key :: rest)
      else evict capacity (entries.erase key) rest

def insert (cache : LruCache K V) (key : K) (value : V) : LruCache K V :=
  if cache.capacity = 0 then cache
  else if key ∈ cache.entries then
    { cache with
      entries := cache.entries.insert key value
      order := touch cache.order key }
  else
    let room := evict cache.capacity cache.entries cache.order
    { cache with
      entries := room.1.insert key value
      order := room.2 ++ [key] }

inductive Operation (K V : Type) where
  | get (key : K)
  | insert (key : K) (value : V)

def step (cache : LruCache K V) : Operation K V → LruCache K V
  | .get key => (cache.get key).2
  | .insert key value => cache.insert key value

/-- The key that an operation uses: one that is found or is stored. -/
def used (cache : LruCache K V) : Operation K V → List K
  | .get key => if key ∈ cache.entries then [key] else []
  | .insert key _ => if cache.capacity = 0 then [] else [key]

def run : List (Operation K V) → LruCache K V → LruCache K V
  | [], cache => cache
  | operation :: rest, cache => run rest (cache.step operation)

/-- The keys that are used, one use after the other. -/
def uses : List (Operation K V) → LruCache K V → List K
  | [], _ => []
  | operation :: rest, cache => cache.used operation ++ uses rest (cache.step operation)

theorem run_append (first second : List (Operation K V)) (cache : LruCache K V) :
    run (first ++ second) cache = run second (run first cache) := by
  induction first generalizing cache with
  | nil => rfl
  | cons operation rest ih => exact ih (cache.step operation)

/-- The queue holds the keys of the entries, each once, and these are the keys that were
last used, in the order of their last use. -/
structure LeastRecent (cache : LruCache K V) (past : List K) : Prop where
  nodup : cache.order.Nodup
  keys (key : K) : key ∈ cache.order ↔ key ∈ cache.entries
  bound : cache.entries.size ≤ cache.capacity
  recent : cache.order <:+ past.dedup

/-! ### What operations keep -/

namespace LeastRecent

variable {cache : LruCache K V} {past : List K}

theorem new (capacity : ℕ) : LeastRecent (LruCache.new capacity : LruCache K V) [] where
  nodup := List.nodup_nil
  keys key := ⟨nofun, fun h => absurd h Std.ExtHashMap.not_mem_empty⟩
  bound := by simp [LruCache.new]
  recent := List.suffix_rfl

/-- The use of a key that is there moves it to the end. -/
theorem touch (h : LeastRecent cache past) {key : K} (hkey : key ∈ cache.entries)
    {entries : Std.ExtHashMap K V} (hentries : ∀ other, other ∈ entries ↔ other ∈ cache.entries)
    (hsize : entries.size = cache.entries.size) :
    LeastRecent { cache with entries := entries, order := LruCache.touch cache.order key }
      (past ++ [key]) where
  nodup := nodup_touch key h.nodup
  keys other := by
    rw [mem_touch h.nodup, hentries, h.keys]
    exact ⟨fun hor => hor.elim (fun heq => heq ▸ hkey) id, .inr⟩
  bound := hsize.symm ▸ h.bound
  recent := by
    rw [dedup_concat]
    exact touch_suffix key past.nodup_dedup h.recent

end LeastRecent

/-- What is left after keys were forgotten from the front. -/
structure Evicted (capacity : ℕ) (entries : Std.ExtHashMap K V) (order : List K)
    (left : Std.ExtHashMap K V × List K) : Prop where
  suffix : left.2 <:+ order
  keys (key : K) : key ∈ left.2 ↔ key ∈ left.1
  room : left.1.size < capacity
  kept (key : K) (value : V) : left.1[key]? = some value → entries[key]? = some value

theorem evict_spec {capacity : ℕ} (hcapacity : capacity ≠ 0) {entries : Std.ExtHashMap K V}
    {order : List K} (hnodup : order.Nodup) (hkeys : ∀ key, key ∈ order ↔ key ∈ entries) :
    Evicted capacity entries order (evict capacity entries order) := by
  induction order generalizing entries with
  | nil =>
    have hempty : entries = ∅ := by
      rw [Std.ExtHashMap.eq_empty_iff_forall_not_mem]
      exact fun key hkey => absurd ((hkeys key).mpr hkey) List.not_mem_nil
    refine ⟨List.suffix_rfl, hkeys, ?_, fun _ _ h => h⟩
    rw [evict, hempty, Std.ExtHashMap.size_empty]
    exact Nat.pos_of_ne_zero hcapacity
  | cons key rest ih =>
    obtain ⟨hnew, hrest⟩ := List.nodup_cons.mp hnodup
    rw [evict]
    split
    · rename_i hroom
      exact ⟨List.suffix_rfl, hkeys, hroom, fun _ _ h => h⟩
    · have herased : ∀ other, other ∈ rest ↔ other ∈ entries.erase key := by
        intro other
        rw [Std.ExtHashMap.mem_erase, ← hkeys, List.mem_cons, beq_eq_false_iff_ne]
        constructor
        · exact fun h => ⟨fun heq => hnew (heq ▸ h), .inr h⟩
        · exact fun h => h.2.resolve_left (Ne.symm h.1)
      have hleft := ih hrest herased
      refine ⟨hleft.suffix.trans (List.suffix_cons key rest), hleft.keys, hleft.room, ?_⟩
      intro other value hvalue
      have hkept := hleft.kept other value hvalue
      rw [Std.ExtHashMap.getElem?_erase] at hkept
      split at hkept
      · cases hkept
      · exact hkept

namespace LeastRecent

variable {cache : LruCache K V} {past : List K}

theorem get (h : LeastRecent cache past) (key : K) :
    LeastRecent (cache.get key).2 (past ++ cache.used (.get key)) := by
  rw [LruCache.get, used]
  cases hvalue : cache.entries[key]? with
  | none =>
    have hnot : key ∉ cache.entries := by
      rw [Std.ExtHashMap.mem_iff_isSome_getElem?, hvalue]
      nofun
    rw [if_neg hnot, List.append_nil]
    exact h
  | some value =>
    have hmem : key ∈ cache.entries := by
      rw [Std.ExtHashMap.mem_iff_isSome_getElem?, hvalue]
      rfl
    rw [if_pos hmem]
    exact h.touch hmem (fun _ => .rfl) rfl

/-- A new key goes to the end of the queue of those that are left. -/
theorem store (h : LeastRecent cache past) {left : Std.ExtHashMap K V × List K}
    (hleft : Evicted cache.capacity cache.entries cache.order left) {key : K}
    (hmem : key ∉ cache.entries) (value : V) :
    LeastRecent { cache with entries := left.1.insert key value, order := left.2 ++ [key] }
      (past ++ [key]) := by
  have hnodup := h.nodup.sublist hleft.suffix.sublist
  have hnot : key ∉ left.2 := fun hkey => hmem ((h.keys key).mp (hleft.suffix.subset hkey))
  have htouch := touch_of_not_mem hnot
  refine ⟨?_, fun other => ?_, ?_, ?_⟩
  · rw [← htouch]
    exact nodup_touch key hnodup
  · rw [← htouch, mem_touch hnodup, Std.ExtHashMap.mem_insert, hleft.keys, beq_iff_eq, eq_comm]
  · have hroom := hleft.room
    exact Nat.le_trans Std.ExtHashMap.size_insert_le hroom
  · rw [dedup_concat, ← htouch]
    exact touch_suffix key past.nodup_dedup (hleft.suffix.trans h.recent)

theorem insert (h : LeastRecent cache past) (key : K) (value : V) :
    LeastRecent (cache.insert key value) (past ++ cache.used (.insert key value)) := by
  rw [LruCache.insert, used]
  by_cases hcapacity : cache.capacity = 0
  · rw [if_pos hcapacity, if_pos hcapacity, List.append_nil]
    exact h
  · rw [if_neg hcapacity, if_neg hcapacity]
    by_cases hmem : key ∈ cache.entries
    · rw [if_pos hmem]
      refine h.touch hmem (fun other => ?_) ?_
      · rw [Std.ExtHashMap.mem_insert, beq_iff_eq]
        exact ⟨fun hor => hor.elim (fun heq => heq ▸ hmem) id, .inr⟩
      · rw [Std.ExtHashMap.size_insert, if_pos hmem]
    · rw [if_neg hmem]
      exact h.store (evict_spec hcapacity h.nodup h.keys) hmem value

theorem step (h : LeastRecent cache past) (operation : Operation K V) :
    LeastRecent (cache.step operation) (past ++ cache.used operation) := by
  cases operation with
  | get key => exact h.get key
  | insert key value => exact h.insert key value

/-- Whatever is looked up and stored, the queue stays that of the keys last used. -/
theorem run (h : LeastRecent cache past) (operations : List (Operation K V)) :
    LeastRecent (LruCache.run operations cache) (past ++ uses operations cache) := by
  induction operations generalizing cache past with
  | nil =>
    rw [uses, List.append_nil]
    exact h
  | cons operation rest ih =>
    rw [LruCache.run, uses, ← List.append_assoc]
    exact ih (h.step operation)

end LeastRecent

/-! ### Values -/

/-- Every entry holds a value that its key allows. -/
def Allows (allowed : K → V → Prop) (cache : LruCache K V) : Prop :=
  ∀ (key : K) (value : V), cache.entries[key]? = some value → allowed key value

namespace Allows

variable {allowed : K → V → Prop} {cache : LruCache K V}

theorem new (capacity : ℕ) : Allows allowed (LruCache.new capacity : LruCache K V) := by
  intro key value h
  rw [LruCache.new, Std.ExtHashMap.getElem?_empty] at h
  cases h

theorem get (h : Allows allowed cache) (key : K) : Allows allowed (cache.get key).2 := by
  rw [LruCache.get]
  split <;> exact h

theorem get_some (h : Allows allowed cache) {key : K} {value : V}
    (hvalue : (cache.get key).1 = some value) : allowed key value := by
  rw [LruCache.get] at hvalue
  split at hvalue
  · cases hvalue
  · rename_i found hfound
    cases hvalue
    exact h key value hfound

theorem insert (h : Allows allowed cache) {past : List K} (hcache : LeastRecent cache past)
    {key : K} {value : V} (hvalue : allowed key value) : Allows allowed (cache.insert key value) := by
  have hput : ∀ entries : Std.ExtHashMap K V,
      (∀ other v, entries[other]? = some v → allowed other v) →
        ∀ other v, (entries.insert key value)[other]? = some v → allowed other v := by
    intro entries hentries other v hv
    rw [Std.ExtHashMap.getElem?_insert] at hv
    split at hv
    · rename_i hsame
      cases hv
      exact beq_iff_eq.mp hsame ▸ hvalue
    · exact hentries other v hv
  rw [LruCache.insert]
  split
  · exact h
  · rename_i hcapacity
    split
    · exact hput cache.entries h
    · exact hput _ fun other v hv =>
        h other v ((evict_spec hcapacity hcache.nodup hcache.keys).kept other v hv)

end Allows

end LruCache

end Ketebe.Lib
