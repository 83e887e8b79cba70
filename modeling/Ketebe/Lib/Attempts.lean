import Mathlib.Logic.Basic

/-!
Programs that attempt effects one after the other. The environment answers each
attempt, and may look at all earlier ones; the journal keeps the attempts in
order. `Records` speaks of the attempts that a program adds to any journal.
-/
namespace Ketebe.Lib.Attempts

structure Attempt (E : Type) where
  effect : E
  succeeded : Bool

abbrev Journal (E : Type) := List (Attempt E)

/-- A program with errors. What it has attempted outlives its error. -/
abbrev Program (E ε α : Type) := ExceptT ε (StateM (Journal E)) α

variable {E ε α β : Type}

def attempt (effect : E) (answer : Journal E → Except ε Unit) : Program E ε Unit := fun journal =>
  match answer journal with
  | .ok () => (.ok (), journal ++ [⟨effect, true⟩])
  | .error error => (.error error, journal ++ [⟨effect, false⟩])

/-- A computation without effects. -/
def lift (result : Except ε α) : Program E ε α := fun journal => (result, journal)

theorem bind_apply (program : Program E ε α) (next : α → Program E ε β) (journal : Journal E) :
    (program >>= next) journal = match program journal with
      | (.ok value, after) => next value after
      | (.error error, after) => (.error error, after) := by
  simp only [bind, ExceptT.bind, ExceptT.mk, StateT.bind, ExceptT.bindCont]
  rcases program journal with ⟨_ | _, _⟩ <;> rfl

/-- Whatever was attempted before, the program adds attempts and ends as the
postcondition says. -/
def Records (program : Program E ε α) (post : Journal E → Except ε α → Prop) : Prop :=
  ∀ journal, ∃ fresh, (program journal).2 = journal ++ fresh ∧ post fresh (program journal).1

namespace Records

variable {program : Program E ε α} {post post' : Journal E → Except ε α → Prop}

theorem mono (h : Records program post) (hpost : ∀ fresh result, post fresh result →
    post' fresh result) : Records program post' := by
  intro journal
  obtain ⟨fresh, hjournal, hresult⟩ := h journal
  exact ⟨fresh, hjournal, hpost fresh _ hresult⟩

theorem pure {value : α} (h : post [] (.ok value)) : Records (Pure.pure value) post :=
  fun journal => ⟨[], (List.append_nil journal).symm, h⟩

theorem lift {result : Except ε α} (h : post [] result) : Records (lift result) post :=
  fun journal => ⟨[], (List.append_nil journal).symm, h⟩

theorem attempt {effect : E} {answer : Journal E → Except ε Unit}
    {post : Journal E → Except ε Unit → Prop} (hok : post [⟨effect, true⟩] (.ok ()))
    (herror : ∀ journal error, answer journal = .error error →
      post [⟨effect, false⟩] (.error error)) : Records (attempt effect answer) post := by
  intro journal
  unfold Attempts.attempt
  cases hanswer : answer journal with
  | ok _ => exact ⟨_, rfl, hok⟩
  | error error => exact ⟨_, rfl, herror journal error hanswer⟩

/-- In sequence the attempts of the second program follow those of the first. -/
theorem bind {next : α → Program E ε β} {post' : Journal E → Except ε β → Prop}
    (h : Records program post)
    (hok : ∀ first value, post first (.ok value) →
      Records (next value) fun second result => post' (first ++ second) result)
    (herror : ∀ first error, post first (.error error) → post' first (.error error)) :
    Records (program >>= next) post' := by
  intro journal
  obtain ⟨first, hjournal, hresult⟩ := h journal
  rw [bind_apply]
  rcases hprogram : program journal with ⟨error | value, after⟩
  · rw [hprogram] at hjournal hresult
    exact ⟨first, hjournal, herror first error hresult⟩
  · rw [hprogram] at hjournal hresult
    obtain ⟨second, hsecond, hpost⟩ := hok first value hresult after
    have hjournal : after = journal ++ first := hjournal
    exact ⟨first ++ second, by rw [hsecond, hjournal, List.append_assoc], hpost⟩

end Records

end Ketebe.Lib.Attempts
