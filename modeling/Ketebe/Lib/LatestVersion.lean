import Ketebe.Lib.KeyedTable
import Mathlib.Data.List.Induction
import Mathlib.Order.Compare
import Mathlib.Order.Lattice
import Std.Data.ExtTreeMap

/-!
Versioned writes and the table of the latest version of every key. Which table
a list of versions folds to does not depend on the order of the list, as long
as key and sequence determine the value, and a list may forget versions that
are not the latest of their key: `Covers` says that it forgets nothing else.
-/
namespace Ketebe.Lib.LatestVersion

open scoped KeyedTable

structure Version (K Q V : Type*) where
  key : K
  sequence : Q
  value : V

variable {K Q V : Type*}

/-- Key and sequence determine the value. -/
def Functional (versions : List (Version K Q V)) : Prop :=
  ∀ v ∈ versions, ∀ w ∈ versions, v.key = w.key → v.sequence = w.sequence → v = w

/-- The version is among the given ones and none of its key is newer. -/
def Latest [LE Q] (versions : List (Version K Q V)) (v : Version K Q V) : Prop :=
  v ∈ versions ∧ ∀ w ∈ versions, w.key = v.key → w.sequence ≤ v.sequence

/-- The second list holds only versions of the first, and all the latest ones. -/
def Covers [LE Q] (log versions : List (Version K Q V)) : Prop :=
  (∀ v ∈ versions, v ∈ log) ∧ ∀ v, Latest log v → v ∈ versions

theorem Functional.subset {log versions : List (Version K Q V)} (h : Functional log)
    (hsubset : ∀ v ∈ versions, v ∈ log) : Functional versions :=
  fun v hv w hw => h v (hsubset v hv) w (hsubset w hw)

namespace Covers

variable [LinearOrder Q] {log log' versions versions' : List (Version K Q V)}

theorem refl (log : List (Version K Q V)) : Covers log log := ⟨fun _ h => h, fun _ h => h.1⟩

/-- Forgetting twice forgets no latest version. -/
theorem trans (h : Covers log versions) (h' : Covers versions versions') :
    Covers log versions' := by
  refine ⟨fun v hv => h.1 v (h'.1 v hv), fun v hv => ?_⟩
  exact h'.2 v ⟨h.2 v hv, fun w hw => hv.2 w (h.1 w hw)⟩

theorem append (h : Covers log versions) (h' : Covers log' versions') :
    Covers (log ++ log') (versions ++ versions') := by
  constructor
  · intro v hv
    rcases List.mem_append.mp hv with hleft | hright
    · exact List.mem_append_left _ (h.1 v hleft)
    · exact List.mem_append_right _ (h'.1 v hright)
  · rintro v ⟨hmem, hlast⟩
    rcases List.mem_append.mp hmem with hleft | hright
    · exact List.mem_append_left _
        (h.2 v ⟨hleft, fun w hw => hlast w (List.mem_append_left _ hw)⟩)
    · exact List.mem_append_right _
        (h'.2 v ⟨hright, fun w hw => hlast w (List.mem_append_right _ hw)⟩)

/-- Known versions may be added back. -/
theorem absorb (h : Covers log versions) (hsubset : ∀ v ∈ versions', v ∈ log) :
    Covers log (versions' ++ versions) := by
  refine ⟨fun v hv => ?_, fun v hv => List.mem_append_right _ (h.2 v hv)⟩
  rcases List.mem_append.mp hv with hleft | hright
  · exact hsubset v hleft
  · exact h.1 v hright

theorem congr (h : Covers log versions) (hmem : ∀ v, v ∈ versions' ↔ v ∈ versions) :
    Covers log versions' :=
  ⟨fun v hv => h.1 v ((hmem v).mp hv), fun v hv => (hmem v).mpr (h.2 v hv)⟩

end Covers

/-- A version newer than all the others replaces the latest of its key. -/
theorem latest_append_singleton [Preorder Q] {versions : List (Version K Q V)}
    {new v : Version K Q V} (hnew : ∀ w ∈ versions, w.sequence < new.sequence) :
    Latest (versions ++ [new]) v ↔ v = new ∨ v.key ≠ new.key ∧ Latest versions v := by
  constructor
  · rintro ⟨hmem, hlast⟩
    rcases List.mem_append.mp hmem with hold | hsingle
    · refine Or.inr ⟨fun hkey => ?_, hold, fun w hw => hlast w (List.mem_append_left _ hw)⟩
      have hle := hlast new (by simp) hkey.symm
      exact absurd hle (hnew v hold).not_ge
    · exact Or.inl (List.mem_singleton.mp hsingle)
  · rintro (rfl | ⟨hkey, hmem, hlast⟩)
    · refine ⟨by simp, fun w hw _ => ?_⟩
      rcases List.mem_append.mp hw with hold | hsingle
      · exact (hnew w hold).le
      · rw [List.mem_singleton.mp hsingle]
    · refine ⟨List.mem_append_left _ hmem, fun w hw hwkey => ?_⟩
      rcases List.mem_append.mp hw with hold | hsingle
      · exact hlast w hold hwkey
      · rw [List.mem_singleton.mp hsingle] at hwkey
        exact absurd hwkey.symm hkey

/-! ### The table -/

section Table

variable [LinearOrder K] [LinearOrder Q]

/-- A map from keys to their latest sequence and value, iterated in key order. -/
abbrev Table (K Q V : Type*) [LinearOrder K] := Std.ExtTreeMap K (Q × V) compare

/-- A version replaces a strictly older one of its key. -/
def applyVersion (table : Table K Q V) (v : Version K Q V) : Table K Q V :=
  match table[v.key]? with
  | some (sequence, _) =>
      if v.sequence ≤ sequence then table else table.insert v.key (v.sequence, v.value)
  | none => table.insert v.key (v.sequence, v.value)

def fold (versions : List (Version K Q V)) : Table K Q V := versions.foldl applyVersion ∅

theorem getElem?_applyVersion (table : Table K Q V) (v : Version K Q V) (key : K) :
    (applyVersion table v)[key]? =
      if v.key = key ∧ ∀ entry ∈ table[v.key]?, entry.1 < v.sequence then
        some (v.sequence, v.value) else table[key]? := by
  unfold applyVersion
  by_cases hkey : v.key = key
  · subst hkey
    cases hentry : table[v.key]? with
    | none => simp
    | some entry =>
      by_cases hle : v.sequence ≤ entry.1
      · simp [hle, hentry, not_lt.mpr hle]
      · simp [hle, not_le.mp hle]
  · have hcompare : compare v.key key ≠ .eq := by rwa [ne_eq, compare_eq_iff_eq]
    cases table[v.key]? with
    | none => simp [hkey, Std.ExtTreeMap.getElem?_insert]
    | some entry =>
      by_cases hle : v.sequence ≤ entry.1
      · simp [hkey, hle]
      · simp [hkey, hle, Std.ExtTreeMap.getElem?_insert]

theorem fold_append_singleton (versions : List (Version K Q V)) (v : Version K Q V) :
    fold (versions ++ [v]) = applyVersion (fold versions) v := by
  simp only [fold, List.foldl_append, List.foldl_cons, List.foldl_nil]

/-- The table holds a version that is latest for its key, or the key is unknown. -/
theorem fold_cases (versions : List (Version K Q V)) (key : K) :
    ((fold versions)[key]? = none ∧ ∀ w ∈ versions, w.key ≠ key) ∨
      ∃ v, (fold versions)[key]? = some (v.sequence, v.value) ∧ v.key = key ∧
        Latest versions v := by
  induction versions using List.reverseRecOn with
  | nil => exact Or.inl ⟨by simp [fold], nofun⟩
  | append_singleton versions last ih =>
    rw [fold_append_singleton, getElem?_applyVersion]
    by_cases hkey : last.key = key
    · subst hkey
      rcases ih with ⟨hnone, hunknown⟩ | ⟨v, hv, hvkey, hmem, hlast⟩
      · refine Or.inr ⟨last, by simp [hnone], rfl, by simp, fun w hw hwkey => ?_⟩
        rcases List.mem_append.mp hw with hold | hnew
        · exact absurd hwkey (hunknown w hold)
        · rw [List.mem_singleton.mp hnew]
      · by_cases hlt : v.sequence < last.sequence
        · refine Or.inr ⟨last, by simp [hv, hlt], rfl, by simp, fun w hw hwkey => ?_⟩
          rcases List.mem_append.mp hw with hold | hnew
          · exact (hlast w hold (hwkey.trans hvkey.symm)).trans hlt.le
          · rw [List.mem_singleton.mp hnew]
        · refine Or.inr ⟨v, by simp [hv, hlt], hvkey, List.mem_append_left _ hmem,
            fun w hw hwkey => ?_⟩
          rcases List.mem_append.mp hw with hold | hnew
          · exact hlast w hold hwkey
          · rw [List.mem_singleton.mp hnew]
            exact not_lt.mp hlt
    · rw [if_neg fun h => hkey h.1]
      rcases ih with ⟨hnone, hunknown⟩ | ⟨v, hv, hvkey, hmem, hlast⟩
      · refine Or.inl ⟨hnone, fun w hw => ?_⟩
        rcases List.mem_append.mp hw with hold | hnew
        · exact hunknown w hold
        · rwa [List.mem_singleton.mp hnew]
      · refine Or.inr ⟨v, hv, hvkey, List.mem_append_left _ hmem, fun w hw hwkey => ?_⟩
        rcases List.mem_append.mp hw with hold | hnew
        · exact hlast w hold hwkey
        · rw [List.mem_singleton.mp hnew] at hwkey
          exact absurd (hwkey.trans hvkey) hkey

/-- The entry of a key when later versions are added: only a newer one replaces it. -/
def newer (old new : Option (Q × V)) : Option (Q × V) :=
  match new with
  | none => old
  | some entry => if ∀ known ∈ old, known.1 < entry.1 then some entry else old

theorem newer_none_left (entry : Option (Q × V)) : newer none entry = entry := by
  cases entry with
  | none => rfl
  | some entry =>
    have hnone : ∀ known ∈ (none : Option (Q × V)), known.1 < entry.1 := nofun
    rw [newer, if_pos hnone]

theorem newer_assoc (first second third : Option (Q × V)) :
    newer (newer first second) third = newer first (newer second third) := by
  cases third with
  | none => rfl
  | some last =>
    cases second with
    | none => rw [newer_none_left]; rfl
    | some middle =>
      cases first with
      | none => rw [newer_none_left, newer_none_left]
      | some head =>
        by_cases hhead : head.1 < middle.1 <;> by_cases hmiddle : middle.1 < last.1 <;>
          by_cases hlast : head.1 < last.1 <;> simp [newer, hhead, hmiddle, hlast]
        · exact absurd (hhead.trans hmiddle) hlast
        · exact absurd (hlast.trans_le (not_lt.mp hmiddle)) hhead

theorem applyVersion_eq_newer (table : Table K Q V) (v : Version K Q V) :
    (applyVersion table v)[v.key]? = newer table[v.key]? (some (v.sequence, v.value)) := by
  rw [getElem?_applyVersion, newer]
  by_cases hnew : ∀ entry ∈ table[v.key]?, entry.1 < v.sequence
  · rw [if_pos ⟨rfl, hnew⟩, if_pos hnew]
  · rw [if_neg fun h => hnew h.2, if_neg hnew]

/-- Two lists fold to the newer of their entries. -/
theorem fold_append (first second : List (Version K Q V)) (key : K) :
    (fold (first ++ second))[key]? = newer (fold first)[key]? (fold second)[key]? := by
  induction second using List.reverseRecOn with
  | nil =>
    rw [List.append_nil, fold, fold, List.foldl_nil, Std.ExtTreeMap.getElem?_empty]
    rfl
  | append_singleton second last ih =>
    rw [← List.append_assoc, fold_append_singleton, fold_append_singleton]
    by_cases hkey : last.key = key
    · subst hkey
      rw [applyVersion_eq_newer, applyVersion_eq_newer, ih, newer_assoc]
    · rw [getElem?_applyVersion, getElem?_applyVersion, if_neg fun h => hkey h.1,
        if_neg fun h => hkey h.1, ih]

/-- Versions that are all newer than the ones before them replace their entries. -/
theorem fold_append_of_lt {first second : List (Version K Q V)}
    (h : ∀ v ∈ first, ∀ w ∈ second, v.sequence < w.sequence) (key : K) :
    (fold (first ++ second))[key]? = (fold second)[key]?.or (fold first)[key]? := by
  rw [fold_append]
  rcases fold_cases second key with ⟨hnone, -⟩ | ⟨w, hw, -, hmem, -⟩
  · rw [hnone]
    rfl
  · have hnewer : ∀ known ∈ (fold first)[key]?, known.1 < w.sequence := by
      intro known hknown
      rcases fold_cases first key with ⟨hnone, -⟩ | ⟨v, hv, -, hold, -⟩
      · rw [hnone] at hknown
        cases hknown
      · rw [hv] at hknown
        cases hknown
        exact h v hold w hmem
    rw [hw, newer]
    exact if_pos hnewer

theorem latest_of_fold {versions : List (Version K Q V)} {v : Version K Q V}
    (h : (fold versions)[v.key]? = some (v.sequence, v.value)) : Latest versions v := by
  rcases fold_cases versions v.key with ⟨hnone, -⟩ | ⟨w, hw, hkey, hlatest⟩
  · rw [hnone] at h
    cases h
  · rw [hw] at h
    obtain ⟨hsequence, hvalue⟩ := Prod.mk.inj (Option.some.inj h)
    have hvw : w = v := by
      cases w
      cases v
      cases hkey
      cases hsequence
      cases hvalue
      rfl
    rwa [← hvw]

theorem fold_of_latest {versions : List (Version K Q V)} (hfun : Functional versions)
    {v : Version K Q V} (h : Latest versions v) :
    (fold versions)[v.key]? = some (v.sequence, v.value) := by
  rcases fold_cases versions v.key with ⟨-, hunknown⟩ | ⟨w, hw, hkey, hmem, hlast⟩
  · exact absurd rfl (hunknown v h.1)
  · have hsequence : w.sequence = v.sequence :=
      le_antisymm (h.2 w hmem hkey) (hlast v h.1 hkey.symm)
    rw [hw, hfun w hmem v h.1 hkey hsequence]

/-- A cover folds to the table of what it covers. -/
theorem Covers.fold_eq {log versions : List (Version K Q V)} (hfun : Functional log)
    (h : Covers log versions) : fold versions = fold log := by
  refine Std.ExtTreeMap.ext_getElem? fun key => ?_
  rcases fold_cases log key with ⟨hnone, hunknown⟩ | ⟨v, hv, rfl, hlatest⟩
  · rcases fold_cases versions key with ⟨hnone', -⟩ | ⟨w, -, hwkey, hmem, -⟩
    · rw [hnone, hnone']
    · exact absurd hwkey (hunknown w (h.1 w hmem))
  · rw [hv]
    have hlatest' : Latest versions v :=
      ⟨h.2 v hlatest, fun w hw => hlatest.2 w (h.1 w hw)⟩
    exact fold_of_latest (hfun.subset h.1) hlatest'

/-- The entries of a table as versions, in key order. -/
def versionsOf (table : Table K Q V) : List (Version K Q V) :=
  table.toList.map fun entry => ⟨entry.1, entry.2.1, entry.2.2⟩

omit [LinearOrder Q] in
theorem mem_versionsOf {table : Table K Q V} {v : Version K Q V} :
    v ∈ versionsOf table ↔ table[v.key]? = some (v.sequence, v.value) := by
  rw [versionsOf, List.mem_map, ← Std.ExtTreeMap.mem_toList_iff_getElem?_eq_some]
  constructor
  · rintro ⟨entry, hentry, rfl⟩
    exact hentry
  · intro h
    exact ⟨_, h, rfl⟩

/-- The latest versions of a list cover it. -/
theorem covers_fold {versions : List (Version K Q V)} (hfun : Functional versions) :
    Covers versions (versionsOf (fold versions)) := by
  refine ⟨fun v hv => ?_, fun v hv => ?_⟩
  · exact (latest_of_fold (mem_versionsOf.mp hv)).1
  · exact mem_versionsOf.mpr (fold_of_latest hfun hv)

end Table

/-! ### Replaying writes -/

section Replay

variable [LinearOrder K]

/-- A value is stored under its key, none removes the key. -/
def applyWrite (table : Std.ExtTreeMap K V compare) (v : Version K Q (Option V)) :
    Std.ExtTreeMap K V compare :=
  match v.value with
  | some value => table.insert v.key value
  | none => table.erase v.key

/-- All writes in the order of the list: the last one to a key wins. -/
def replay (versions : List (Version K Q (Option V))) : Std.ExtTreeMap K V compare :=
  versions.foldl applyWrite ∅

theorem replay_append_singleton (versions : List (Version K Q (Option V)))
    (v : Version K Q (Option V)) : replay (versions ++ [v]) = applyWrite (replay versions) v := by
  simp only [replay, List.foldl_append, List.foldl_cons, List.foldl_nil]

theorem getElem?_applyWrite (table : Std.ExtTreeMap K V compare) (v : Version K Q (Option V))
    (key : K) : (applyWrite table v)[key]? = if v.key = key then v.value else table[key]? := by
  unfold applyWrite
  cases v.value with
  | none => simp [Std.ExtTreeMap.getElem?_erase]
  | some value => simp [Std.ExtTreeMap.getElem?_insert]

variable [LinearOrder Q]

/-- Versions in sequence order replay to the values of their latest versions. -/
theorem replay_eq_fold {versions : List (Version K Q (Option V))}
    (hordered : versions.Pairwise fun v w => v.sequence < w.sequence) :
    replay versions = (fold versions).filterMap fun _ entry => entry.2 := by
  refine Std.ExtTreeMap.ext_getElem? fun key => ?_
  rw [Std.ExtTreeMap.getElem?_filterMap']
  induction versions using List.reverseRecOn with
  | nil => simp [replay, fold]
  | append_singleton versions last ih =>
    obtain ⟨hearlier, -, hlast⟩ := List.pairwise_append.mp hordered
    rw [replay_append_singleton, fold_append_singleton, getElem?_applyWrite, getElem?_applyVersion,
      ih hearlier]
    by_cases hkey : last.key = key
    · have hnewest : ∀ entry ∈ (fold versions)[last.key]?, entry.1 < last.sequence := by
        intro entry hentry
        rcases fold_cases versions last.key with ⟨hnone, -⟩ | ⟨v, hv, -, hmem, -⟩
        · rw [hnone] at hentry
          cases hentry
        · rw [hv] at hentry
          cases hentry
          exact hlast v hmem last (List.mem_singleton_self _)
      rw [if_pos hkey, if_pos ⟨hkey, hnewest⟩]
      rfl
    · rw [if_neg hkey, if_neg fun h => hkey h.1]

end Replay

end Ketebe.Lib.LatestVersion
