import Mathlib.Data.List.Basic
import Mathlib.Data.Nat.Notation

/-!
Codes that end on their own. Whatever follows the code of a value, both can be told from
the text, so that codes put behind each other stay apart. `EndsAt` states this for one
value, which lets an induction over nested values use it for their parts.
-/
namespace Ketebe.Lib.PrefixCode

variable {α β σ : Type}

/-- The code of this value is told from any other code and from what follows it. -/
def EndsAt (encode : α → List σ) (value : α) : Prop :=
  ∀ other rest tail, encode value ++ rest = encode other ++ tail → value = other ∧ rest = tail

def Ends (encode : α → List σ) : Prop := ∀ value, EndsAt encode value

theorem Ends.injective {encode : α → List σ} (h : Ends encode) : Function.Injective encode := by
  intro value other heq
  exact (h value other [] [] (by rw [heq])).1

/-- Codes of one length end on their own. -/
theorem ends_of_length {encode : α → List σ} (hinjective : Function.Injective encode)
    (hlength : ∀ value other, (encode value).length = (encode other).length) : Ends encode := by
  intro value other rest tail h
  obtain ⟨hcode, hrest⟩ := List.append_inj h (hlength value other)
  exact ⟨hinjective hcode, hrest⟩

/-- A text without a symbol is told from what the symbol starts. -/
theorem append_cons_inj {first second rest tail : List σ} {stop : σ} (hfirst : stop ∉ first)
    (hsecond : stop ∉ second) (h : first ++ stop :: rest = second ++ stop :: tail) :
    first = second ∧ rest = tail := by
  induction first generalizing second with
  | nil =>
    cases second with
    | nil => exact ⟨rfl, (List.cons.inj h).2⟩
    | cons head others => exact absurd ((List.cons.inj h).1 ▸ List.mem_cons_self) hsecond
  | cons symbol symbols ih =>
    cases second with
    | nil => exact absurd ((List.cons.inj h).1 ▸ List.mem_cons_self) hfirst
    | cons head others =>
      obtain ⟨hhead, hothers⟩ := List.cons.inj h
      obtain ⟨hsame, hrest⟩ := ih (fun hmem => hfirst (List.mem_cons_of_mem _ hmem))
        (fun hmem => hsecond (List.mem_cons_of_mem _ hmem)) hothers
      exact ⟨by rw [hhead, hsame], hrest⟩

/-- Codes without a symbol end at that symbol. -/
theorem ends_of_stop {encode : α → List σ} {stop : σ} (hinjective : Function.Injective encode)
    (hstop : ∀ value, stop ∉ encode value) : Ends fun value => encode value ++ [stop] := by
  intro value other rest tail h
  rw [List.append_assoc, List.append_assoc] at h
  obtain ⟨hcode, hrest⟩ := append_cons_inj (hstop value) (hstop other) h
  exact ⟨hinjective hcode, hrest⟩

namespace EndsAt

variable {encode : α → List σ} {encodeNext : β → List σ} {value : α} {next : β}

theorem append (h : EndsAt encode value) (tail : List σ) :
    EndsAt (fun value => encode value ++ tail) value := by
  intro other rest more heq
  rw [List.append_assoc, List.append_assoc] at heq
  obtain ⟨hvalue, hrest⟩ := h other _ _ heq
  exact ⟨hvalue, List.append_cancel_left hrest⟩

theorem prepend (h : EndsAt encode value) (head : List σ) :
    EndsAt (fun value => head ++ encode value) value := by
  intro other rest more heq
  rw [List.append_assoc, List.append_assoc] at heq
  exact h other _ _ (List.append_cancel_left heq)

theorem pair (h : EndsAt encode value) (hnext : EndsAt encodeNext next) :
    EndsAt (fun both : α × β => encode both.1 ++ encodeNext both.2) (value, next) := by
  intro other rest more heq
  rw [List.append_assoc, List.append_assoc] at heq
  obtain ⟨hvalue, hrest⟩ := h other.1 _ _ heq
  obtain ⟨hsecond, hmore⟩ := hnext other.2 _ _ hrest
  exact ⟨Prod.ext hvalue hsecond, hmore⟩

/-- A list ends at a symbol that starts no code. -/
theorem closed {values : List α} {stop : σ} (h : ∀ value ∈ values, EndsAt encode value)
    (hstop : ∀ value rest tail, encode value ++ rest ≠ stop :: tail) :
    EndsAt (fun values => values.flatMap encode ++ [stop]) values := by
  induction values with
  | nil =>
    intro other rest more heq
    cases other with
    | nil => exact ⟨rfl, (List.cons.inj heq).2⟩
    | cons head others =>
      simp only [List.flatMap_nil, List.flatMap_cons, List.append_assoc] at heq
      exact absurd heq.symm (hstop head _ _)
  | cons value values ih =>
    intro other rest more heq
    simp only [List.flatMap_cons, List.append_assoc] at heq
    cases other with
    | nil => exact absurd heq (hstop value _ _)
    | cons head others =>
      rw [List.flatMap_cons, List.append_assoc] at heq
      obtain ⟨hvalue, hrest⟩ := h value List.mem_cons_self head _ _ heq
      rw [← List.append_assoc, ← List.append_assoc] at hrest
      obtain ⟨hvalues, hmore⟩ :=
        ih (fun value hmem => h value (List.mem_cons_of_mem _ hmem)) others _ _ hrest
      exact ⟨by rw [hvalue, hvalues], hmore⟩

end EndsAt

end Ketebe.Lib.PrefixCode
