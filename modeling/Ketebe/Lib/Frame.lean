import Ketebe.Lib.Durable

/-!
Programs that stay within a relation. Every durable step and every update of such
a program leads from a state to a related one, so the program keeps each
condition that the relation carries over, however it ends without a crash.
-/
namespace Ketebe.Lib.Frame

open Durable Program

universe u

variable {σ : Type u} {ε ε' α β : Type u} {R : σ → σ → Prop}

/-- The condition holds however a program ends, unless it crashes. -/
def unlessCrashed (P : σ → Prop) : Post σ ε α :=
  ⟨fun _ next => P next, fun _ next => P next, fun _ => True⟩

def Within (R : σ → σ → Prop) (program : Program σ ε α) : Prop :=
  ∀ P : σ → Prop, (∀ start next, P start → R start next → P next) →
    ∀ start, P start → program.Ensures (unlessCrashed P) start

variable {program : Program σ ε α}

theorem within_pure (value : α) : Within R (pure value : Program σ ε α) :=
  fun _ _ _ h => ensures_pure h

theorem within_throw (error : ε) : Within R (throw error : Program σ ε α) :=
  fun _ _ _ h => ensures_throw h

theorem within_get : Within R (get : Program σ ε σ) := fun _ _ _ h => ensures_get h

theorem within_lift (result : Except ε α) : Within R (lift result : Program σ ε α) :=
  fun _ _ _ h => ensures_lift (fun _ _ => h) fun _ _ => h

theorem within_bind {f : α → Program σ ε β} (h : Within R program)
    (hf : ∀ value, Within R (f value)) : Within R (program >>= f) := by
  intro P hcarry start hstart
  refine ensures_bind ((h P hcarry start hstart).mono (fun value next hnext => ?_)
    (fun _ _ hnext => hnext) fun _ hnext => hnext)
  exact hf value P hcarry next hnext

theorem within_handle {handler : ε → Program σ ε' α} (h : Within R program)
    (hhandler : ∀ error, Within R (handler error)) : Within R (program.handle handler) := by
  intro P hcarry start hstart
  refine ensures_handle ((h P hcarry start hstart).mono (fun _ _ hnext => hnext)
    (fun error next hnext => ?_) fun _ hnext => hnext)
  exact hhandler error P hcarry next hnext

theorem within_mapError {f : ε → ε'} (h : Within R program) : Within R (program.mapError f) :=
  within_handle h fun _ => within_throw _

/-- After a program that stays within the relation the carried condition still holds. -/
theorem Within.bind_ensures {P Q : σ → Prop} {f : α → Program σ ε β} {start : σ}
    (h : Within R program) (hcarry : ∀ start next, P start → R start next → P next)
    (hstart : P start) (hweaken : ∀ next, P next → Q next)
    (hf : ∀ value next, P next → (f value).Ensures (unlessCrashed Q) next) :
    (program >>= f).Ensures (unlessCrashed Q) start :=
  ensures_bind ((h P hcarry start hstart).mono (fun value next hnext => hf value next hnext)
    (fun _ next hnext => hweaken next hnext) fun _ hnext => hnext)

section Steps

variable {σ : Type} {ε : Type} {R : σ → σ → Prop}

theorem within_modify {update : σ → σ} (h : ∀ start, R start (update start)) :
    Within R (modify update : Program σ ε Unit) :=
  fun _ hcarry start hstart => ensures_modify (hcarry start _ hstart (h start))

theorem within_durable {error : ε} {write : σ → σ} (h : ∀ start, R start (write start)) :
    Within R (durable error write : Program σ ε Unit) := by
  intro P hcarry start hstart
  have hwritten : P (write start) := hcarry start _ hstart (h start)
  exact ensures_durable hwritten hstart hwritten trivial trivial

theorem within_durableAtomic {error : ε} {write : σ → σ} (h : ∀ start, R start (write start)) :
    Within R (durableAtomic error write : Program σ ε Unit) := by
  intro P hcarry start hstart
  have hwritten : P (write start) := hcarry start _ hstart (h start)
  exact ensures_durableAtomic hwritten hstart trivial trivial

theorem within_attempt (hrefl : ∀ start, R start start) (error : ε) :
    Within R (attempt error : Program σ ε Unit) :=
  within_durable hrefl

end Steps

end Ketebe.Lib.Frame
