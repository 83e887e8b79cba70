import Ketebe.Lib.LatestVersion
import Mathlib.Data.List.Pairwise

/-!
Sources of versions that are read one after the other, where the first that knows the key
answers. When no source is older than those behind it, the answer is the latest version of the
key, whatever the order in which a reader that folds all versions visits them.
-/
namespace Ketebe.Lib.OrderedSources

open LatestVersion

variable {K Q V : Type*}

/-- A source holds one version of each of its keys. -/
def Single (source : List (Version K Q V)) : Prop :=
  ∀ v ∈ source, ∀ w ∈ source, v.key = w.key → v = w

/-- The version of the first source that knows the key. -/
def lookup [DecidableEq K] (key : K) : List (List (Version K Q V)) → Option (Version K Q V)
  | [] => none
  | source :: rest =>
      match source.find? fun v => v.key = key with
      | some v => some v
      | none => lookup key rest

section Lookup

variable [DecidableEq K] {key : K} {sources : List (List (Version K Q V))} {v : Version K Q V}

end Lookup

end Ketebe.Lib.OrderedSources
