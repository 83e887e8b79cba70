import Mathlib.Logic.Relation

/-!
Runs of a state machine whose events are the calls and faults of its
environment. `Reaches` restricts the events by a condition on the state they
meet, so that one run theorem covers both every run and the runs of a class.
-/
namespace Ketebe.Lib.Runs

variable {σ ε : Type*}

/-- Some finite run of allowed events leads from the first state to the second. -/
def Reaches (step : σ → ε → σ) (allowed : σ → ε → Prop) : σ → σ → Prop :=
  Relation.ReflTransGen fun s t => ∃ event, allowed s event ∧ t = step s event

/-- Every event is allowed in the state that it meets. -/
def Allowed (step : σ → ε → σ) (allowed : σ → ε → Prop) : σ → List ε → Prop
  | _, [] => True
  | s, event :: rest => allowed s event ∧ Allowed step allowed (step s event) rest

instance Allowed.decidable (step : σ → ε → σ) (allowed : σ → ε → Prop)
    [∀ s event, Decidable (allowed s event)] :
    (s : σ) → (events : List ε) → Decidable (Allowed step allowed s events)
  | _, [] => instDecidableTrue
  | s, event :: rest =>
      have := Allowed.decidable step allowed (step s event) rest
      inferInstanceAs (Decidable (allowed s event ∧ _))

/-- Where allowed events preserve `I`, which implies `P`, and any other event breaks `P`, the runs
with `P` in every state are those of allowed events. -/
theorem forall_prefix_iff_allowed {step : σ → ε → σ} {allowed : σ → ε → Prop} {I P : σ → Prop}
    (hP : ∀ s, I s → P s) (hstep : ∀ s event, I s → allowed s event → I (step s event))
    (hbad : ∀ s event, I s → ¬ allowed s event → ¬ P (step s event)) (events : List ε) {s : σ}
    (hs : I s) :
    (∀ earlier, earlier <+: events → P (earlier.foldl step s)) ↔ Allowed step allowed s events := by
  induction events generalizing s with
  | nil =>
    simp only [List.prefix_nil, forall_eq, List.foldl_nil, Allowed, iff_true]
    exact hP s hs
  | cons event rest ih =>
    constructor
    · intro h
      have hallowed : allowed s event := by
        refine Classical.byContradiction fun hnot => ?_
        exact hbad s event hs hnot (h [event] (List.prefix_append [event] rest))
      refine ⟨hallowed, (ih (hstep s event hs hallowed)).mp ?_⟩
      intro earlier hearlier
      exact h (event :: earlier) ((List.prefix_cons_inj event).mpr hearlier)
    · intro ⟨hallowed, hrest⟩ earlier hearlier
      rcases List.prefix_cons_iff.mp hearlier with rfl | ⟨before, rfl, hbefore⟩
      · exact hP s hs
      · exact (ih (hstep s event hs hallowed)).mpr hrest before hbefore

namespace Reaches

variable {step : σ → ε → σ} {allowed : σ → ε → Prop} {s t : σ}

theorem refl (s : σ) : Reaches step allowed s s := Relation.ReflTransGen.refl

theorem tail (h : Reaches step allowed s t) (event : ε) (hallowed : allowed t event) :
    Reaches step allowed s (step t event) :=
  Relation.ReflTransGen.tail h ⟨event, hallowed, rfl⟩

/-- Where every event is allowed, any list of events is a run. -/
theorem foldl (events : List ε) (s : σ) : Reaches step (fun _ _ => True) s (events.foldl step s) := by
  induction events generalizing s with
  | nil => exact refl s
  | cons event rest ih =>
    exact Relation.ReflTransGen.trans ((refl s).tail event trivial) (ih (step s event))

theorem of_allowed {events : List ε} (h : Allowed step allowed s events) :
    Reaches step allowed s (events.foldl step s) := by
  induction events generalizing s with
  | nil => exact refl s
  | cons event rest ih => exact Relation.ReflTransGen.trans ((refl s).tail event h.1) (ih h.2)

/-- What one allowed event preserves holds in every state reached. -/
theorem invariant (h : Reaches step allowed s t) (I : σ → Prop) (hstart : I s)
    (hstep : ∀ s event, I s → allowed s event → I (step s event)) : I t := by
  induction h with
  | refl => exact hstart
  | tail _ hlast ih =>
    obtain ⟨event, hallowed, rfl⟩ := hlast
    exact hstep _ event ih hallowed

end Reaches

end Ketebe.Lib.Runs
