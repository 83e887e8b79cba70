import Ketebe.Lib.Runs
import Mathlib.Order.Basic
import Mathlib.Order.Nat

/-!
Infinite runs of a state machine, and the rule that something comes about in them: while
it has not, some event helps, and it is bound to happen if it can.
-/
namespace Ketebe.Lib.Runs

variable {σ ε : Type*}

/-- An infinite run. An event that the state does not allow leaves it as it is. -/
structure Behaviour (step : σ → ε → σ) where
  states : ℕ → σ
  events : ℕ → ε
  next : ∀ n, states (n + 1) = step (states n) (events n)

namespace Behaviour

variable {step : σ → ε → σ} (run : Behaviour step)

/-- An event that could change the state from some time on does happen. -/
def Fair (event : ε) : Prop :=
  ∀ n, (∀ m, n ≤ m → step (run.states m) event ≠ run.states m) →
    ∃ m, n ≤ m ∧ run.events m = event

variable {run}

/-- What every event preserves holds from the time it first does. -/
theorem invariant {I : σ → Prop} (hstep : ∀ s event, I s → I (step s event)) {n : ℕ}
    (h : I (run.states n)) {m : ℕ} (hle : n ≤ m) : I (run.states m) := by
  induction m, hle using Nat.le_induction with
  | base => exact h
  | succ m _ ih =>
    rw [run.next]
    exact hstep _ _ ih

theorem reaches (n : ℕ) : Reaches step (fun _ _ => True) (run.states 0) (run.states n) :=
  run.invariant (I := Reaches step (fun _ _ => True) (run.states 0))
    (fun _ event h => h.tail event trivial) (Reaches.refl _) (Nat.zero_le n)

/-- An event helps until it happens or another one does its work. -/
structure Helps (step : σ → ε → σ) (I Q : σ → Prop) (rank : σ → ℕ) (helpful : σ → ε → Prop) :
    Prop where
  invariant (s : σ) (event : ε) : I s → I (step s event)
  exists_helpful (s : σ) : I s → ¬Q s → ∃ event, helpful s event
  enabled (s : σ) (event : ε) : I s → ¬Q s → helpful s event → step s event ≠ s
  progress (s : σ) (event other : ε) : I s → ¬Q s → helpful s event →
    Q (step s other) ∨ rank (step s other) < rank s ∨
      rank (step s other) = rank s ∧ helpful (step s other) event ∧ other ≠ event

/-- By induction on the rank; a state of one rank cannot last, since its helpful event is
enabled and happens. -/
theorem Helps.eventually {I Q : σ → Prop} {rank : σ → ℕ} {helpful : σ → ε → Prop}
    (h : Helps step I Q rank helpful)
    (hfair : ∀ s event, helpful s event → run.Fair event) {n : ℕ} (hI : I (run.states n)) :
    ∃ m, n ≤ m ∧ Q (run.states m) := by
  induction hrank : rank (run.states n) using Nat.strong_induction_on generalizing n with
  | _ bound ih =>
    by_contra hnever
    have hnot (m : ℕ) (hm : n ≤ m) : ¬Q (run.states m) := fun hQ => hnever ⟨m, hm, hQ⟩
    have hlow (m : ℕ) (hm : n ≤ m) (hinv : I (run.states m)) : ¬rank (run.states m) < bound := by
      intro hlt
      obtain ⟨later, hlater, hQ⟩ := ih _ hlt hinv rfl
      exact hnever ⟨later, hm.trans hlater, hQ⟩
    obtain ⟨event, hevent⟩ := h.exists_helpful _ hI (hnot n le_rfl)
    have hlasts (m : ℕ) (hm : n ≤ m) : I (run.states m) ∧ rank (run.states m) = bound ∧
        helpful (run.states m) event := by
      induction m, hm using Nat.le_induction with
      | base => exact ⟨hI, hrank, hevent⟩
      | succ m hm hlast =>
        obtain ⟨hinv, hsame, hhelps⟩ := hlast
        have hnext : I (run.states (m + 1)) := by
          rw [run.next]
          exact h.invariant _ _ hinv
        have hprogress := h.progress _ event (run.events m) hinv (hnot m hm) hhelps
        rw [← run.next] at hprogress
        obtain hQ | hlt | ⟨hrank', hhelps', -⟩ := hprogress
        · exact absurd hQ (hnot _ (hm.trans (Nat.le_succ m)))
        · exact absurd (hlt.trans_eq hsame) (hlow _ (hm.trans (Nat.le_succ m)) hnext)
        · exact ⟨hnext, hrank'.trans hsame, hhelps'⟩
    obtain ⟨m, hm, hhappens⟩ := hfair _ _ hevent n fun m hm =>
      h.enabled _ _ (hlasts m hm).1 (hnot m hm) (hlasts m hm).2.2
    obtain ⟨hinv, hsame, hhelps⟩ := hlasts m hm
    have hprogress := h.progress _ event (run.events m) hinv (hnot m hm) hhelps
    rw [← run.next] at hprogress
    obtain hQ | hlt | ⟨-, -, hother⟩ := hprogress
    · exact hnot _ (hm.trans (Nat.le_succ m)) hQ
    · exact hlow _ (hm.trans (Nat.le_succ m)) (hlasts _ (hm.trans (Nat.le_succ m))).1
        (hlt.trans_eq hsame)
    · exact hother hhappens

end Behaviour

end Ketebe.Lib.Runs
