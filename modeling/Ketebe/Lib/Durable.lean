import Mathlib.Logic.Basic

/-!
Programs over a state that outlives the process. Every durable step meets the
next fault of a given schedule: it may fail or the process may crash, each
before or after the step took effect. `Ensures` gives the weakest condition
under which all the ways to end, for every schedule, are as required.
-/
namespace Ketebe.Lib.Durable

/-- What happens at one durable step. -/
inductive Fault where
  | none
  | failsBefore
  | failsAfter
  | crashesBefore
  | crashesAfter
  deriving DecidableEq, Repr

/-- The state with the faults still to come; no fault follows the last one. -/
structure World (σ : Type*) where
  state : σ
  faults : List Fault

inductive Ending (ε α : Type*) where
  | ok (value : α)
  | error (error : ε)
  | crashed

def Program (σ ε α : Type*) := World σ → Ending ε α × World σ

namespace Program

universe u

variable {σ ε ε' : Type*} {α β : Type u}

def run (program : Program σ ε α) (state : σ) (faults : List Fault) : Ending ε α × World σ :=
  program ⟨state, faults⟩

def continueWith (f : α → Program σ ε β) : Ending ε α × World σ → Ending ε β × World σ
  | (.ok value, world) => f value world
  | (.error error, world) => (.error error, world)
  | (.crashed, world) => (.crashed, world)

instance : Monad (Program σ ε) where
  pure value := fun world => (.ok value, world)
  bind program f := fun world => continueWith f (program world)

def throw (error : ε) : Program σ ε α := fun world => (.error error, world)

def get : Program σ ε σ := fun world => (.ok world.state, world)

/-- A volatile update, which meets no fault. -/
def modify (update : σ → σ) : Program σ ε Unit :=
  fun world => (.ok (), ⟨update world.state, world.faults⟩)

def lift : Except ε α → Program σ ε α
  | .ok value => pure value
  | .error error => throw error

/-- Runs the handler on an error; a crash is not handled. -/
def handle (program : Program σ ε α) (handler : ε → Program σ ε' α) : Program σ ε' α := fun world =>
  match program world with
  | (.ok value, world) => (.ok value, world)
  | (.error error, world) => handler error world
  | (.crashed, world) => (.crashed, world)

/-- One durable step under the given fault. -/
def underFault (error : ε) (write : σ → σ) (state : σ) : Fault → Ending ε Unit × σ
  | .none => (.ok (), write state)
  | .failsBefore => (.error error, state)
  | .failsAfter => (.error error, write state)
  | .crashesBefore => (.crashed, state)
  | .crashesAfter => (.crashed, write state)

def durable (error : ε) (write : σ → σ) : Program σ ε Unit := fun world =>
  match underFault error write world.state (world.faults.headD .none) with
  | (ending, state) => (ending, ⟨state, world.faults.tail⟩)

/-- A step that may fail but changes nothing, such as opening a file. -/
def attempt (error : ε) : Program σ ε Unit := durable error id

def mapError (program : Program σ ε α) (f : ε → ε') : Program σ ε' α :=
  program.handle fun error => throw (f error)

/-- A durable step that has not taken effect when it fails. -/
def durableAtomic (error : ε) (write : σ → σ) : Program σ ε Unit := fun world =>
  let fault := world.faults.headD .none
  match underFault error write world.state
      (if fault = .failsAfter then .failsBefore else fault) with
  | (ending, state) => (ending, ⟨state, world.faults.tail⟩)

/-- The body for each element in turn. -/
def forEach {γ : Type*} (body : γ → Program σ ε Unit) : List γ → Program σ ε Unit
  | [] => pure ()
  | head :: rest => do
    body head
    forEach body rest

/-- A program that works on a part of the state. -/
def onPart {τ : Type*} (view : σ → τ) (update : τ → σ → σ) (program : Program τ ε α) :
    Program σ ε α := fun world =>
  match program ⟨view world.state, world.faults⟩ with
  | (ending, part) => (ending, ⟨update part.state world.state, part.faults⟩)

/-- A condition for each way a program can end. -/
structure Post (σ ε α : Type*) where
  ok : α → σ → Prop
  error : ε → σ → Prop
  crashed : σ → Prop

def Post.holds (post : Post σ ε α) : Ending ε α × World σ → Prop
  | (.ok value, world) => post.ok value world.state
  | (.error error, world) => post.error error world.state
  | (.crashed, world) => post.crashed world.state

/-- The same conditions on errors and crashes, another one on success. -/
def Post.withOk (post : Post σ ε α) (ok : β → σ → Prop) : Post σ ε β :=
  ⟨ok, post.error, post.crashed⟩

/-- Started in this state, the program ends as `post` says under every schedule of faults. -/
def Ensures (program : Program σ ε α) (post : Post σ ε α) (state : σ) : Prop :=
  ∀ faults, post.holds (program.run state faults)

section Rules

variable {program : Program σ ε α} {post : Post σ ε α} {state : σ}

theorem Ensures.mono {post' : Post σ ε α} (h : program.Ensures post state)
    (hok : ∀ value s, post.ok value s → post'.ok value s)
    (herror : ∀ error s, post.error error s → post'.error error s)
    (hcrashed : ∀ s, post.crashed s → post'.crashed s) : program.Ensures post' state := by
  intro faults
  have hpost := h faults
  generalize program.run state faults = ending at hpost ⊢
  obtain ⟨value | error | _, world⟩ := ending
  · exact hok value _ hpost
  · exact herror error _ hpost
  · exact hcrashed _ hpost

theorem ensures_pure {value : α} (h : post.ok value state) :
    (pure value : Program σ ε α).Ensures post state := fun _ => h

theorem ensures_throw {error : ε} (h : post.error error state) :
    (throw error : Program σ ε α).Ensures post state := fun _ => h

theorem ensures_get {post : Post σ ε σ} (h : post.ok state state) :
    (get : Program σ ε σ).Ensures post state := fun _ => h

theorem ensures_modify {post : Post σ ε Unit} {update : σ → σ} (h : post.ok () (update state)) :
    (modify update : Program σ ε Unit).Ensures post state := fun _ => h

theorem ensures_lift {result : Except ε α} (hok : ∀ value, result = .ok value → post.ok value state)
    (herror : ∀ error, result = .error error → post.error error state) :
    (lift result : Program σ ε α).Ensures post state := by
  cases result with
  | ok value => exact ensures_pure (hok value rfl)
  | error error => exact ensures_throw (herror error rfl)

theorem ensures_bind {post : Post σ ε β} {f : α → Program σ ε β}
    (h : program.Ensures (post.withOk fun value s => (f value).Ensures post s) state) :
    (program >>= f).Ensures post state := by
  intro faults
  have hfirst := h faults
  show post.holds (continueWith f (program.run state faults))
  generalize program.run state faults = ending at hfirst ⊢
  obtain ⟨value | error | _, world⟩ := ending
  · exact hfirst world.faults
  · exact hfirst
  · exact hfirst

theorem ensures_getBind {σ : Type u} {post : Post σ ε β} {state : σ} {f : σ → Program σ ε β}
    (h : (f state).Ensures post state) : (get >>= f).Ensures post state :=
  ensures_bind (ensures_get h)

theorem ensures_handle {post : Post σ ε' α} {handler : ε → Program σ ε' α}
    (h : program.Ensures ⟨post.ok, fun error s => (handler error).Ensures post s, post.crashed⟩
      state) : (program.handle handler).Ensures post state := by
  intro faults
  have hfirst := h faults
  unfold run handle at *
  generalize program ⟨state, faults⟩ = ending at hfirst ⊢
  obtain ⟨value | error | _, world⟩ := ending
  · exact hfirst
  · exact hfirst world.faults
  · exact hfirst

theorem ensures_durable {post : Post σ ε Unit} {error : ε} {write : σ → σ}
    (hok : post.ok () (write state)) (hbefore : post.error error state)
    (hafter : post.error error (write state)) (hcrashed : post.crashed state)
    (hcrashed' : post.crashed (write state)) :
    (durable error write : Program σ ε Unit).Ensures post state := by
  intro faults
  unfold run durable
  generalize faults.headD .none = fault
  cases fault with
  | none => exact hok
  | failsBefore => exact hbefore
  | failsAfter => exact hafter
  | crashesBefore => exact hcrashed
  | crashesAfter => exact hcrashed'

theorem ensures_attempt {post : Post σ ε Unit} {error : ε} (hok : post.ok () state)
    (herror : post.error error state) (hcrashed : post.crashed state) :
    (attempt error : Program σ ε Unit).Ensures post state :=
  ensures_durable hok herror herror hcrashed hcrashed

theorem ensures_mapError {post : Post σ ε' α} {f : ε → ε'}
    (h : program.Ensures ⟨post.ok, fun error s => post.error (f error) s, post.crashed⟩ state) :
    (program.mapError f).Ensures post state :=
  ensures_handle (h.mono (fun _ _ h => h) (fun _ _ h => ensures_throw h) fun _ h => h)

theorem ensures_onPart {τ : Type*} {view : σ → τ} {update : τ → σ → σ} {part : Program τ ε α}
    (h : part.Ensures ⟨fun value t => post.ok value (update t state),
      fun error t => post.error error (update t state),
      fun t => post.crashed (update t state)⟩ (view state)) :
    (part.onPart view update).Ensures post state := by
  intro faults
  have hpart := h faults
  unfold run onPart at *
  generalize part ⟨view state, faults⟩ = ending at hpart ⊢
  obtain ⟨value | error | _, world⟩ := ending
  · exact hpart
  · exact hpart
  · exact hpart

theorem ensures_durableAtomic {post : Post σ ε Unit} {error : ε} {write : σ → σ}
    (hok : post.ok () (write state)) (hbefore : post.error error state)
    (hcrashed : post.crashed state) (hcrashed' : post.crashed (write state)) :
    (durableAtomic error write : Program σ ε Unit).Ensures post state := by
  intro faults
  unfold run durableAtomic
  generalize faults.headD .none = fault
  cases fault with
  | none => exact hok
  | failsBefore => exact hbefore
  | failsAfter => exact hbefore
  | crashesBefore => exact hcrashed
  | crashesAfter => exact hcrashed'

/-- A loop keeps what its body keeps. -/
theorem ensures_forEach {γ : Type*} {post : Post σ ε Unit} {body : γ → Program σ ε Unit}
    {elements : List γ} {I : σ → Prop} (hstart : I state)
    (hbody : ∀ element ∈ elements, ∀ s, I s →
      (body element).Ensures (post.withOk fun _ t => I t) s)
    (hdone : ∀ s, I s → post.ok () s) : (forEach body elements).Ensures post state := by
  induction elements generalizing state with
  | nil => exact ensures_pure (hdone state hstart)
  | cons head rest ih =>
    apply ensures_bind
    refine (hbody head (List.mem_cons_self ..) state hstart).mono (fun _ s hs => ?_)
      (fun _ _ h => h) (fun _ h => h)
    exact ih hs fun element helement => hbody element (List.mem_cons_of_mem _ helement)

end Rules

/-- Without faults, the program ends with this value and state. -/
def Returns (program : Program σ ε α) (state : σ) (value : α) (after : σ) : Prop :=
  program.run state [] = (.ok value, ⟨after, []⟩)

/-- A program that ends well has passed the check it starts with. -/
theorem ok_of_liftBind {result : Except ε α} {f : α → Program σ ε β} {state : σ}
    {faults : List Fault} {value : β} {world : World σ}
    (h : (lift result >>= f).run state faults = (.ok value, world)) :
    ∃ a, result = .ok a ∧ (f a).run state faults = (.ok value, world) := by
  cases result with
  | error error => cases h
  | ok a => exact ⟨a, rfl, h⟩

section Returns

variable {program : Program σ ε α} {state after final : σ} {value : α}

theorem returns_pure : (pure value : Program σ ε α).Returns state value state := rfl

theorem returns_modify {update : σ → σ} :
    (modify update : Program σ ε Unit).Returns state () (update state) := rfl

theorem returns_durableAtomic {error : ε} {write : σ → σ} :
    (durableAtomic error write : Program σ ε Unit).Returns state () (write state) := rfl

theorem returns_lift {result : Except ε α} (h : result = .ok value) :
    (lift result : Program σ ε α).Returns state value state := by
  rw [h]
  exact returns_pure

theorem returns_bind {f : α → Program σ ε β} {next : β} (h : program.Returns state value after)
    (hnext : (f value).Returns after next final) : (program >>= f).Returns state next final := by
  show continueWith f (program.run state []) = _
  rw [h]
  exact hnext

/-- A program goes on from where a first one returns. -/
theorem Returns.run_bind {f : α → Program σ ε β} (h : program.Returns state value after) :
    (program >>= f).run state [] = (f value).run after [] := by
  show continueWith f (program.run state []) = _
  rw [h]
  rfl

theorem returns_getBind {σ : Type u} {state final : σ} {next : β} {f : σ → Program σ ε β}
    (h : (f state).Returns state next final) : (get >>= f).Returns state next final :=
  returns_bind rfl h

theorem returns_handle {handler : ε → Program σ ε' α} (h : program.Returns state value after) :
    (program.handle handler).Returns state value after := by
  unfold Returns run handle at *
  rw [h]

theorem returns_handler {handler : ε → Program σ ε' α} (error : ε)
    (h : program.run state [] = (.error error, ⟨after, []⟩))
    (hhandler : (handler error).Returns after value final) :
    (program.handle handler).Returns state value final := by
  unfold Returns run handle at *
  rw [h]
  exact hhandler

theorem returns_mapError {f : ε → ε'} (h : program.Returns state value after) :
    (program.mapError f).Returns state value after := by
  unfold Returns run mapError handle at *
  rw [h]

theorem returns_onPart {τ : Type*} {view : σ → τ} {update : τ → σ → σ} {part : Program τ ε α}
    {partAfter : τ} (h : part.Returns (view state) value partAfter) :
    (part.onPart view update).Returns state value (update partAfter state) := by
  unfold Returns run onPart at *
  rw [h]

end Returns

end Program

end Ketebe.Lib.Durable
