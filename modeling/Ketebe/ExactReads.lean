import Ketebe.AcknowledgedWrites
import Ketebe.FloatScores

/-!
Which exact queries a collection can answer. Writes are checked for their dimension only, so what
an accepted write can break are the queries under the cosine metric, with a vector of norm zero,
and it breaks all of them until the record is replaced or deleted.
-/
namespace Ketebe

open Lib Lib.ByteCodec Lib.Durable Lib.LatestVersion

open Segment (writes)

namespace StoreStep

variable {F : Type} {state : AppState F} {store next : Store F} {history : List WalMutation}

section KeepsConfig

variable [DecidableEq F] {S : Type} [ScoreArith S] {config : CollectionConfig}
  {logged : List WalMutation}

/-- The store keeps the configuration that it was created with. -/
structure KeepsConfig (config : CollectionConfig) (store : Store F) : Prop where
  stored : store.dir.config = config
  metric : ∀ runtime, store.runtime = some runtime → runtime.metric = config.distanceMetric

namespace KeepsConfig

omit [DecidableEq F] in
theorem update (h : KeepsConfig config store) {update : CollectionRuntime → CollectionRuntime}
    (hmetric : ∀ runtime, store.runtime = some runtime → (update runtime).metric = runtime.metric) :
    KeepsConfig config (store.updateRuntime update) := by
  refine ⟨h.stored, fun runtime hruntime => ?_⟩
  obtain ⟨before, hbefore, rfl⟩ := Option.map_eq_some_iff.mp hruntime
  rw [hmetric before hbefore]
  exact h.metric before hbefore

omit [DecidableEq F] in
theorem dir (h : KeepsConfig config store) {update : CollectionDir F → CollectionDir F}
    (hconfig : (update store.dir).config = store.dir.config) :
    KeepsConfig config (store.updateDir update) := ⟨hconfig.trans h.stored, h.metric⟩

theorem step (h : KeepsConfig config store) (hstep : Step S state store logged next) :
    KeepsConfig config next := by
  cases hstep with
  | stop | appendThenStop => exact ⟨h.stored, fun _ hruntime => (by cases hruntime)⟩
  | append => exact (h.dir rfl).update fun _ _ => rfl
  | sealSegment | sealCheckpoint | compactSegment | compactCheckpoint | collect | reclaimWal
  | createWal | publishHnsw => exact h.dir rfl
  | closeWal | openWal | setHnsw => exact h.update fun _ _ => rfl
  | sealRuntime hseals =>
    refine h.update fun runtime hruntime => ?_
    cases hseals.running.symm.trans hruntime
    rfl
  | compactRuntime hcompacts =>
    refine h.update fun runtime hruntime => ?_
    cases hcompacts.running.symm.trans hruntime
    rfl
  | recover hrecovers =>
    refine ⟨h.stored, fun runtime hruntime => ?_⟩
    cases hruntime
    rw [← h.stored]
    exact congrArg CollectionRuntime.metric hrecovers.writable

theorem steps (h : KeepsConfig config store) (hsteps : Steps S state store logged next) :
    KeepsConfig config next := by
  induction hsteps with
  | refl => exact h
  | tail _ hstep ih => exact ih.step hstep

end KeepsConfig

end KeepsConfig

end StoreStep

namespace Session

open StoreStep

variable {F : Type} [DecidableEq F] {S : Type} [ScoreArith S] {state : AppState F}
  {config : CollectionConfig}

end Session

end Ketebe
