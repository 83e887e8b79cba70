import Ketebe.Lib.FairRuns
import Mathlib.Data.Finset.Card

/-!
The life of a server: ready for foreground writes, then draining those it has admitted,
then stopped. Calls change the phase under a gate; the count of the admitted writes and
the wake-up of who waits for them are outside it.
-/
namespace Ketebe

open Lib.Runs

inductive LifecyclePhase where
  | starting
  | ready
  | draining
  | stopped
  deriving DecidableEq, Repr

/-- `as u8` -/
def LifecyclePhase.code : LifecyclePhase → ℕ
  | .starting => 0
  | .ready => 1
  | .draining => 2
  | .stopped => 3

theorem LifecyclePhase.code_injective : Function.Injective code := by
  intro left right h
  cases left <;> cases right <;> first | rfl | cases h

instance : LinearOrder LifecyclePhase := LinearOrder.lift' _ LifecyclePhase.code_injective

/-- A call that takes the gate. -/
inductive GateCall where
  | tryAdmitForegroundWrite
  | markReady
  | beginDraining
  | markStopped
  deriving DecidableEq, Repr

inductive CallState where
  | idle
  /-- It has not got the gate yet. -/
  | locking (call : GateCall)
  | holding (call : GateCall)
  /-- It has found the phase ready. -/
  | admitting
  /-- It is about to leave the gate, with a guard if it has admitted a write. -/
  | leaving (call : GateCall) (guard : Bool)
  | returned (call : GateCall) (guard : Bool)
  deriving DecidableEq, Repr

/-- The call has taken the gate and not left it. -/
def CallState.inGate : CallState → Bool
  | .holding _ => true
  | .admitting => true
  | .leaving _ _ => true
  | _ => false

/-- Who waits for the writes to be drained; the flag says whether draining had begun when it
started. A notification remembers how often waiters had been notified when it was created. -/
inductive WriteWaiter where
  | idle
  | looping (draining : Bool)
  | created (draining : Bool) (notified : ℕ)
  | waiting (draining : Bool) (notified : ℕ)
  | returned (draining : Bool)
  deriving DecidableEq, Repr

namespace WriteWaiter

def isDraining : WriteWaiter → Bool
  | .idle => false
  | .looping draining => draining
  | .created draining _ => draining
  | .waiting draining _ => draining
  | .returned draining => draining

def notification : WriteWaiter → Option ℕ
  | .created _ notified => some notified
  | .waiting _ notified => some notified
  | _ => none

end WriteWaiter

/-- Who waits for the draining to begin, with the version of the phase last seen. -/
inductive PhaseWaiter where
  | idle
  | checking (seen : ℕ)
  | waiting (seen : ℕ)
  | returned
  deriving DecidableEq, Repr

def PhaseWaiter.seen : PhaseWaiter → Option ℕ
  | .checking seen => some seen
  | .waiting seen => some seen
  | _ => none

/-- A guard is known by the call that handed it out. Counters do not overflow: every guard
holds a reference, and references are counted in fewer bits. -/
structure Lifecycle where
  phase : LifecyclePhase
  version : ℕ
  writeGate : Option ℕ
  activeForegroundWrites : ℕ
  notifyWaitersCalls : ℕ
  calls : ℕ → CallState
  guards : Finset ℕ
  /-- Dropped guards that have yet to notify the waiters. -/
  notifying : Finset ℕ
  writeWaiters : ℕ → WriteWaiter
  phaseWaiters : ℕ → PhaseWaiter

namespace Lifecycle

def starting : Lifecycle :=
  ⟨.starting, 0, none, 0, 0, fun _ => .idle, ∅, ∅, fun _ => .idle, fun _ => .idle⟩

section Effects

variable (s : Lifecycle)

/-- A new version of the phase, also when it is the same. -/
def sendReplace (phase : LifecyclePhase) : Lifecycle :=
  { s with phase, version := s.version + 1 }

def markReady : Lifecycle := if s.phase < .draining then s.sendReplace .ready else s

def beginDraining : Lifecycle := if s.phase < .draining then s.sendReplace .draining else s

def markStopped : Lifecycle := s.sendReplace .stopped

def setCall (caller : ℕ) (state : CallState) : Lifecycle :=
  { s with calls := Function.update s.calls caller state }

def setWriteWaiter (waiter : ℕ) (state : WriteWaiter) : Lifecycle :=
  { s with writeWaiters := Function.update s.writeWaiters waiter state }

def setPhaseWaiter (waiter : ℕ) (state : PhaseWaiter) : Lifecycle :=
  { s with phaseWaiters := Function.update s.phaseWaiters waiter state }

/-- What a call does once it has the gate. -/
def perform (caller : ℕ) : GateCall → Lifecycle
  | .tryAdmitForegroundWrite =>
      if s.phase ≠ .ready then s.setCall caller (.leaving .tryAdmitForegroundWrite false)
      else s.setCall caller .admitting
  | .markReady => s.markReady.setCall caller (.leaving .markReady false)
  | .beginDraining => s.beginDraining.setCall caller (.leaving .beginDraining false)
  | .markStopped => s.markStopped.setCall caller (.leaving .markStopped false)

end Effects

def ready : Lifecycle := starting.markReady

inductive Event where
  | call (caller : ℕ) (call : GateCall)
  | lock (caller : ℕ)
  | perform (caller : ℕ)
  | fetchAdd (caller : ℕ)
  | unlock (caller : ℕ)
  | drop (guard : ℕ)
  | notifyWaiters (guard : ℕ)
  | waitForWrites (waiter : ℕ)
  | notified (waiter : ℕ)
  | load (waiter : ℕ)
  | wake (waiter : ℕ)
  | subscribe (waiter : ℕ)
  | borrow (waiter : ℕ)
  | changed (waiter : ℕ)
  deriving DecidableEq, Repr

/-- One step of a caller, of who drops a guard or of a waiter. -/
def step (s : Lifecycle) : Event → Lifecycle
  | .call caller call =>
      match s.calls caller with
      | .idle => s.setCall caller (.locking call)
      | _ => s
  | .lock caller =>
      match s.calls caller, s.writeGate with
      | .locking call, none => { s.setCall caller (.holding call) with writeGate := some caller }
      | _, _ => s
  | .perform caller =>
      match s.calls caller with
      | .holding call => s.perform caller call
      | _ => s
  | .fetchAdd caller =>
      match s.calls caller with
      | .admitting => { s.setCall caller (.leaving .tryAdmitForegroundWrite true) with
          activeForegroundWrites := s.activeForegroundWrites + 1
          guards := insert caller s.guards }
      | _ => s
  | .unlock caller =>
      match s.calls caller with
      | .leaving call guard => { s.setCall caller (.returned call guard) with writeGate := none }
      | _ => s
  | .drop guard =>
      if guard ∈ s.guards ∧ s.calls guard = .returned .tryAdmitForegroundWrite true then { s with
        activeForegroundWrites := s.activeForegroundWrites - 1
        guards := s.guards.erase guard
        notifying :=
          if s.activeForegroundWrites = 1 then insert guard s.notifying else s.notifying }
      else s
  | .notifyWaiters guard =>
      if guard ∈ s.notifying then { s with
        notifyWaitersCalls := s.notifyWaitersCalls + 1
        notifying := s.notifying.erase guard }
      else s
  | .waitForWrites waiter =>
      match s.writeWaiters waiter with
      | .idle => s.setWriteWaiter waiter (.looping (decide (.draining ≤ s.phase)))
      | _ => s
  | .notified waiter =>
      match s.writeWaiters waiter with
      | .looping draining => s.setWriteWaiter waiter (.created draining s.notifyWaitersCalls)
      | _ => s
  | .load waiter =>
      match s.writeWaiters waiter with
      | .created draining notified =>
          if s.activeForegroundWrites = 0 then s.setWriteWaiter waiter (.returned draining)
          else s.setWriteWaiter waiter (.waiting draining notified)
      | _ => s
  | .wake waiter =>
      match s.writeWaiters waiter with
      | .waiting draining notified =>
          if notified < s.notifyWaitersCalls then s.setWriteWaiter waiter (.looping draining)
          else s
      | _ => s
  | .subscribe waiter =>
      match s.phaseWaiters waiter with
      | .idle => s.setPhaseWaiter waiter (.checking s.version)
      | _ => s
  | .borrow waiter =>
      match s.phaseWaiters waiter with
      | .checking seen =>
          if .draining ≤ s.phase then s.setPhaseWaiter waiter .returned
          else s.setPhaseWaiter waiter (.waiting seen)
      | _ => s
  | .changed waiter =>
      match s.phaseWaiters waiter with
      | .waiting seen =>
          if seen ≠ s.version then s.setPhaseWaiter waiter (.checking s.version) else s
      | _ => s

/-! ### The phase -/

section Phase

variable {s : Lifecycle}

theorem phase_lt_draining {phase : LifecyclePhase} (h : phase < .draining) : phase ≤ .ready := by
  revert h
  cases phase <;> decide

theorem le_phase_perform (s : Lifecycle) (caller : ℕ) (call : GateCall) :
    s.phase ≤ (s.perform caller call).phase := by
  cases call with
  | tryAdmitForegroundWrite =>
    rw [perform]
    split <;> exact le_refl s.phase
  | markReady =>
    change s.phase ≤ s.markReady.phase
    unfold markReady
    split
    · exact phase_lt_draining ‹_›
    · exact le_rfl
  | beginDraining =>
    change s.phase ≤ s.beginDraining.phase
    unfold beginDraining
    split
    · exact le_of_lt ‹_›
    · exact le_rfl
  | markStopped =>
    change s.phase ≤ .stopped
    cases s.phase <;> decide

/-- What a call does in the gate concerns its own state and the phase only. -/
theorem perform_eq (s : Lifecycle) (caller : ℕ) (call : GateCall) : ∃ phase version state,
    state.inGate ∧ s.perform caller call = { s.setCall caller state with phase, version } := by
  cases call with
  | tryAdmitForegroundWrite =>
    rw [perform]
    split <;> exact ⟨_, _, _, rfl, rfl⟩
  | markReady =>
    rw [perform, markReady]
    split <;> exact ⟨_, _, _, rfl, rfl⟩
  | beginDraining =>
    rw [perform, beginDraining]
    split <;> exact ⟨_, _, _, rfl, rfl⟩
  | markStopped => exact ⟨_, _, _, rfl, rfl⟩

/-- No step moves the phase backwards. -/
theorem le_phase_step (s : Lifecycle) (event : Event) : s.phase ≤ (s.step event).phase := by
  cases event
  case perform caller =>
    unfold step
    dsimp only
    split
    · exact le_phase_perform s caller _
    · exact le_rfl
  all_goals
    unfold step
    dsimp only
    repeat' split
    all_goals exact le_rfl

end Phase

/-! ### The gate -/

/-- Who is in the gate holds it, and what it has found there still stands. -/
structure Gated (s : Lifecycle) : Prop where
  gate (caller : ℕ) : (s.calls caller).inGate → s.writeGate = some caller
  admitting (caller : ℕ) : s.calls caller = .admitting → s.phase = .ready
  leaving (caller : ℕ) : s.calls caller = .leaving .tryAdmitForegroundWrite true → s.phase = .ready
  begun (caller : ℕ) (guard : Bool) : s.calls caller = .leaving .beginDraining guard ∨
    s.calls caller = .returned .beginDraining guard → .draining ≤ s.phase

section Gated

variable {s : Lifecycle} {caller : ℕ}

theorem calls_setCall (s : Lifecycle) (caller other : ℕ) (state : CallState) :
    (s.setCall caller state).calls other = if other = caller then state else s.calls other :=
  Function.update_apply ..

theorem Gated.setCall (h : Gated s) {state : CallState}
    (hgate : state.inGate → s.writeGate = some caller)
    (hready : state = .admitting ∨ state = .leaving .tryAdmitForegroundWrite true →
      s.phase = .ready)
    (hbegun : ∀ guard, state = .leaving .beginDraining guard ∨
      state = .returned .beginDraining guard → .draining ≤ s.phase) :
    Gated (s.setCall caller state) where
  gate other := by
    rw [calls_setCall]
    split
    · rename_i hsame
      rw [hsame]
      exact hgate
    · exact h.gate other
  admitting other := by
    rw [calls_setCall]
    split
    · exact fun hstate => hready (.inl hstate)
    · exact h.admitting other
  leaving other := by
    rw [calls_setCall]
    split
    · exact fun hstate => hready (.inr hstate)
    · exact h.leaving other
  begun other guard := by
    rw [calls_setCall]
    split
    · exact hbegun guard
    · exact h.begun other guard

/-- Who holds the gate and has found nothing yet may move the phase on. -/
theorem Gated.sendReplace (h : Gated s) {call : GateCall} (hcall : s.calls caller = .holding call)
    {phase : LifecyclePhase} (hle : s.phase ≤ phase) : Gated (s.sendReplace phase) := by
  have hgate : s.writeGate = some caller := h.gate caller (by rw [hcall]; rfl)
  have halone {other : ℕ} {state : CallState} (hother : s.calls other = state)
      (hin : state.inGate) : state = .holding call := by
    have hsame : other = caller :=
      Option.some.inj ((h.gate other (by rw [hother]; exact hin)).symm.trans hgate)
    rw [← hother, hsame, hcall]
  refine ⟨h.gate, fun other hother => ?_, fun other hother => ?_, fun other guard hother =>
    (h.begun other guard hother).trans hle⟩
  · cases halone hother rfl
  · cases halone hother rfl

theorem Gated.perform (h : Gated s) {call : GateCall} (hcall : s.calls caller = .holding call) :
    Gated (s.perform caller call) := by
  have hgate : s.writeGate = some caller := h.gate caller (by rw [hcall]; rfl)
  cases call with
  | tryAdmitForegroundWrite =>
    rw [Lifecycle.perform]
    split
    · exact h.setCall (fun _ => hgate) nofun nofun
    · rename_i hready
      exact h.setCall (fun _ => hgate) (fun _ => not_not.mp hready) nofun
  | markReady =>
    have hmarked : Gated s.markReady := by
      unfold markReady
      split
      · exact h.sendReplace hcall (phase_lt_draining ‹_›)
      · exact h
    refine hmarked.setCall (fun _ => ?_) nofun nofun
    unfold markReady
    split <;> exact hgate
  | beginDraining =>
    have hbegun : Gated s.beginDraining := by
      unfold beginDraining
      split
      · exact h.sendReplace hcall (le_of_lt ‹_›)
      · exact h
    refine hbegun.setCall (fun _ => ?_) nofun fun _ _ => ?_
    · unfold beginDraining
      split <;> exact hgate
    · unfold beginDraining
      split
      · exact le_rfl
      · exact not_lt.mp ‹_›
  | markStopped =>
    have hstopped : s.phase ≤ .stopped := by cases s.phase <;> decide
    exact (h.sendReplace hcall hstopped).setCall (fun _ => hgate) nofun nofun

theorem Gated.lock (h : Gated s) (hfree : s.writeGate = none) (call : GateCall) :
    Gated { s.setCall caller (.holding call) with writeGate := some caller } := by
  have houtside (other : ℕ) : ¬(s.calls other).inGate := by
    intro hin
    have hgate := h.gate other hin
    rw [hfree] at hgate
    cases hgate
  have hnot : (CallState.holding call).inGate := rfl
  have hset := calls_setCall s caller
  refine ⟨fun other => ?_, fun other => ?_, fun other => ?_, fun other guard => ?_⟩
  all_goals
    dsimp only
    rw [hset]
    split
  · exact fun _ => congrArg some (Eq.symm ‹_›)
  · exact fun hin => absurd hin (houtside other)
  · exact nofun
  · exact h.admitting other
  · exact nofun
  · exact h.leaving other
  · exact nofun
  · exact h.begun other guard

theorem Gated.unlock (h : Gated s) {call : GateCall} {guard : Bool}
    (hcall : s.calls caller = .leaving call guard) :
    Gated { s.setCall caller (.returned call guard) with writeGate := none } := by
  have hgate : s.writeGate = some caller := h.gate caller (by rw [hcall]; rfl)
  have hset := calls_setCall s caller
  refine ⟨fun other => ?_, fun other => ?_, fun other => ?_, fun other found => ?_⟩
  all_goals
    dsimp only
    rw [hset]
    split
  · exact nofun
  · rename_i hother
    intro hin
    exact absurd (Option.some.inj ((h.gate other hin).symm.trans hgate)) hother
  · exact nofun
  · exact h.admitting other
  · exact nofun
  · exact h.leaving other
  · rintro (hstate | hstate)
    · cases hstate
    · cases hstate
      exact h.begun caller _ (.inl hcall)
  · exact h.begun other found

theorem Gated.fetchAdd (h : Gated s) (hcall : s.calls caller = .admitting) :
    Gated (s.setCall caller (.leaving .tryAdmitForegroundWrite true)) :=
  h.setCall (fun _ => h.gate caller (by rw [hcall]; rfl)) (fun _ => h.admitting caller hcall) nofun

/-- Only the calls and the phase matter to who is in the gate. -/
theorem Gated.step (h : Gated s) (event : Event) : Gated (s.step event) := by
  cases event with
  | call caller call =>
    simp only [Lifecycle.step]
    split
    · exact h.setCall nofun nofun nofun
    · exact h
  | lock caller =>
    simp only [Lifecycle.step]
    split
    · exact h.lock ‹_› _
    · exact h
  | perform caller =>
    simp only [Lifecycle.step]
    split
    · exact h.perform ‹_›
    · exact h
  | fetchAdd caller =>
    simp only [Lifecycle.step]
    split
    · have hadded := h.fetchAdd ‹_›
      exact ⟨hadded.gate, hadded.admitting, hadded.leaving, hadded.begun⟩
    · exact h
  | unlock caller =>
    simp only [Lifecycle.step]
    split
    · exact h.unlock ‹_›
    · exact h
  | _ =>
    simp only [Lifecycle.step]
    repeat' split
    all_goals exact ⟨h.gate, h.admitting, h.leaving, h.begun⟩

end Gated

/-! ### The guards -/

/-- The counter counts the guards, which admitted calls have handed out or are about to. -/
structure Counted (s : Lifecycle) : Prop where
  counter : s.activeForegroundWrites = s.guards.card
  admitted (guard : ℕ) : guard ∈ s.guards →
    s.calls guard = .leaving .tryAdmitForegroundWrite true ∨
      s.calls guard = .returned .tryAdmitForegroundWrite true

section Counted

variable {s : Lifecycle} {caller : ℕ}

theorem Counted.setCall (h : Counted s) {state : CallState} (hold : caller ∉ s.guards) :
    Counted (s.setCall caller state) where
  counter := h.counter
  admitted guard hguard := by
    have hne : guard ≠ caller := fun hsame => hold (hsame ▸ hguard)
    rw [calls_setCall, if_neg hne]
    exact h.admitted guard hguard

/-- A caller without a guard is in none of the two states. -/
theorem Counted.notMem (h : Counted s) {state : CallState} (hcall : s.calls caller = state)
    (hleaving : state ≠ .leaving .tryAdmitForegroundWrite true)
    (hreturned : state ≠ .returned .tryAdmitForegroundWrite true) : caller ∉ s.guards := by
  intro hguard
  obtain hstate | hstate := h.admitted caller hguard
  · exact hleaving (hcall.symm.trans hstate)
  · exact hreturned (hcall.symm.trans hstate)

theorem Counted.perform (h : Counted s) {call : GateCall} (hcall : s.calls caller = .holding call) :
    Counted (s.perform caller call) := by
  obtain ⟨phase, version, state, -, heq⟩ := perform_eq s caller call
  rw [heq]
  have hset : Counted (s.setCall caller state) := h.setCall (h.notMem hcall nofun nofun)
  exact ⟨hset.counter, hset.admitted⟩

theorem Counted.fetchAdd (h : Counted s) (hcall : s.calls caller = .admitting) :
    Counted { s.setCall caller (.leaving .tryAdmitForegroundWrite true) with
      activeForegroundWrites := s.activeForegroundWrites + 1
      guards := insert caller s.guards } where
  counter := by
    rw [Finset.card_insert_of_notMem (h.notMem hcall nofun nofun), ← h.counter]
  admitted guard hguard := by
    dsimp only
    rw [calls_setCall]
    split
    · exact .inl rfl
    · rename_i hne
      exact h.admitted guard ((Finset.mem_insert.mp hguard).resolve_left hne)

theorem Counted.unlock (h : Counted s) {call : GateCall} {guard : Bool}
    (hcall : s.calls caller = .leaving call guard) :
    Counted { s.setCall caller (.returned call guard) with writeGate := none } where
  counter := h.counter
  admitted other hother := by
    dsimp only
    rw [calls_setCall]
    split
    · rename_i hsame
      obtain hstate | hstate := h.admitted other hother
      · rw [hsame, hcall] at hstate
        cases hstate
        exact .inr rfl
      · rw [hsame, hcall] at hstate
        cases hstate
    · exact h.admitted other hother

theorem Counted.drop (h : Counted s) {guard : ℕ} (hguard : guard ∈ s.guards) :
    s.activeForegroundWrites - 1 = (s.guards.erase guard).card := by
  rw [Finset.card_erase_of_mem hguard, h.counter]

theorem Counted.step (h : Counted s) (event : Event) : Counted (s.step event) := by
  cases event with
  | call caller call =>
    simp only [Lifecycle.step]
    split
    · rename_i hcall
      exact h.setCall (h.notMem hcall nofun nofun)
    · exact h
  | lock caller =>
    simp only [Lifecycle.step]
    split
    · rename_i call hcall hgate
      have hset : Counted (s.setCall caller (.holding call)) :=
        h.setCall (h.notMem hcall nofun nofun)
      exact ⟨hset.counter, hset.admitted⟩
    · exact h
  | perform caller =>
    simp only [Lifecycle.step]
    split
    · exact h.perform ‹_›
    · exact h
  | fetchAdd caller =>
    simp only [Lifecycle.step]
    split
    · exact h.fetchAdd ‹_›
    · exact h
  | unlock caller =>
    simp only [Lifecycle.step]
    split
    · exact h.unlock ‹_›
    · exact h
  | drop guard =>
    simp only [Lifecycle.step]
    split
    · rename_i hguard
      exact ⟨h.drop hguard.1, fun other hother => h.admitted other (Finset.mem_of_mem_erase hother)⟩
    · exact h
  | _ =>
    simp only [Lifecycle.step]
    repeat' split
    all_goals exact ⟨h.counter, h.admitted⟩

end Counted

/-! ### The waiters -/

/-- A notification is not from the future; who waits for one has a write or a notification to
wait for; and who has returned after the draining began has seen the last guard gone. -/
structure Awaited (s : Lifecycle) : Prop where
  seen (waiter notified : ℕ) :
    (s.writeWaiters waiter).notification = some notified → notified ≤ s.notifyWaitersCalls
  waiting (waiter notified : ℕ) (draining : Bool) :
    s.writeWaiters waiter = .waiting draining notified → s.notifyWaitersCalls ≤ notified →
      s.activeForegroundWrites ≠ 0 ∨ s.notifying.Nonempty
  draining (waiter : ℕ) : (s.writeWaiters waiter).isDraining → .draining ≤ s.phase
  returned (waiter : ℕ) : s.writeWaiters waiter = .returned true → s.guards = ∅

section Awaited

variable {s : Lifecycle} {waiter : ℕ}

theorem writeWaiters_setWriteWaiter (s : Lifecycle) (waiter other : ℕ) (state : WriteWaiter) :
    (s.setWriteWaiter waiter state).writeWaiters other =
      if other = waiter then state else s.writeWaiters other :=
  Function.update_apply ..

theorem Awaited.setWriteWaiter (h : Awaited s) {state : WriteWaiter}
    (hseen : ∀ notified, state.notification = some notified → notified ≤ s.notifyWaitersCalls)
    (hwaiting : ∀ draining notified, state = .waiting draining notified →
      s.notifyWaitersCalls ≤ notified → s.activeForegroundWrites ≠ 0 ∨ s.notifying.Nonempty)
    (hdraining : state.isDraining → .draining ≤ s.phase)
    (hreturned : state = .returned true → s.guards = ∅) :
    Awaited (s.setWriteWaiter waiter state) where
  seen other notified := by
    rw [writeWaiters_setWriteWaiter]
    split
    · exact hseen notified
    · exact h.seen other notified
  waiting other notified draining := by
    rw [writeWaiters_setWriteWaiter]
    split
    · exact hwaiting draining notified
    · exact h.waiting other notified draining
  draining other := by
    rw [writeWaiters_setWriteWaiter]
    split
    · exact hdraining
    · exact h.draining other
  returned other := by
    rw [writeWaiters_setWriteWaiter]
    split
    · exact hreturned
    · exact h.returned other

/-- The last guard to be dropped leaves a notification to come. -/
theorem Awaited.drop (h : Awaited s) {guard : ℕ} :
    Awaited { s with
      activeForegroundWrites := s.activeForegroundWrites - 1
      guards := s.guards.erase guard
      notifying :=
        if s.activeForegroundWrites = 1 then insert guard s.notifying else s.notifying } where
  seen := h.seen
  waiting other notified draining hwaiting hle := by
    dsimp only at hwaiting hle ⊢
    split
    · exact .inr (Finset.insert_nonempty ..)
    · exact (h.waiting other notified draining hwaiting hle).imp_left (by omega)
  draining := h.draining
  returned other hreturned := by
    dsimp only at hreturned ⊢
    rw [h.returned other hreturned, Finset.erase_empty]

/-- After a notification nobody waits for an earlier one. -/
theorem Awaited.notifyWaiters (h : Awaited s) {guard : ℕ} :
    Awaited { s with
      notifyWaitersCalls := s.notifyWaitersCalls + 1
      notifying := s.notifying.erase guard } where
  seen other notified hnotified := (h.seen other notified hnotified).trans (Nat.le_succ _)
  waiting other notified draining hwaiting hle := by
    have hseen := h.seen other notified (by rw [hwaiting]; rfl)
    dsimp only at hle
    omega
  draining := h.draining
  returned := h.returned

/-- Guards are added only while the phase is ready, when nobody started after draining. -/
theorem Awaited.fetchAdd (h : Awaited s) (hready : s.phase = .ready) {caller : ℕ} :
    Awaited { s.setCall caller (.leaving .tryAdmitForegroundWrite true) with
      activeForegroundWrites := s.activeForegroundWrites + 1
      guards := insert caller s.guards } where
  seen := h.seen
  waiting other notified draining hwaiting hle := .inl (Nat.succ_ne_zero _)
  draining := h.draining
  returned other hreturned := by
    have hbegun : LifecyclePhase.draining ≤ s.phase := h.draining other (by
      rw [show s.writeWaiters other = .returned true from hreturned]
      rfl)
    rw [hready] at hbegun
    exact absurd hbegun (by decide)

theorem Awaited.load (h : Awaited s) (hcounted : Counted s) {draining : Bool} {notified : ℕ}
    (hcreated : s.writeWaiters waiter = .created draining notified) :
    Awaited (if s.activeForegroundWrites = 0 then s.setWriteWaiter waiter (.returned draining)
      else s.setWriteWaiter waiter (.waiting draining notified)) := by
  have hdraining := h.draining waiter
  have hseen := h.seen waiter notified (by rw [hcreated]; rfl)
  rw [hcreated] at hdraining
  split
  · rename_i hnone
    refine h.setWriteWaiter nofun nofun hdraining fun _ => ?_
    rw [hcounted.counter] at hnone
    exact Finset.card_eq_zero.mp hnone
  · rename_i hsome
    refine h.setWriteWaiter ?_ (fun _ _ _ _ => .inl hsome) hdraining nofun
    rintro _ ⟨⟩
    exact hseen

theorem Awaited.step (h : Awaited s) (hgated : Gated s) (hcounted : Counted s) (event : Event) :
    Awaited (s.step event) := by
  cases event with
  | perform caller =>
    simp only [Lifecycle.step]
    split
    · rename_i call _
      have hphase := le_phase_perform s caller call
      obtain ⟨phase, version, state, -, heq⟩ := perform_eq s caller call
      rw [heq] at hphase ⊢
      exact ⟨h.seen, h.waiting, fun waiter hwaiter => (h.draining waiter hwaiter).trans hphase,
        h.returned⟩
    · exact h
  | fetchAdd caller =>
    simp only [Lifecycle.step]
    split
    · exact h.fetchAdd (hgated.admitting caller ‹_›)
    · exact h
  | drop guard =>
    simp only [Lifecycle.step]
    split
    · exact h.drop
    · exact h
  | notifyWaiters guard =>
    simp only [Lifecycle.step]
    split
    · exact h.notifyWaiters
    · exact h
  | waitForWrites waiter =>
    simp only [Lifecycle.step]
    split
    · exact h.setWriteWaiter nofun nofun of_decide_eq_true nofun
    · exact h
  | notified waiter =>
    simp only [Lifecycle.step]
    split
    · rename_i draining hlooping
      have hdraining := h.draining waiter
      rw [hlooping] at hdraining
      refine h.setWriteWaiter ?_ nofun hdraining nofun
      rintro _ ⟨⟩
      exact le_rfl
    · exact h
  | load waiter =>
    simp only [Lifecycle.step]
    split
    · exact h.load hcounted ‹_›
    · exact h
  | wake waiter =>
    simp only [Lifecycle.step]
    split
    · rename_i draining notified hwaiting
      split
      · have hdraining := h.draining waiter
        rw [hwaiting] at hdraining
        exact h.setWriteWaiter nofun nofun hdraining nofun
      · exact h
    · exact h
  | _ =>
    simp only [Lifecycle.step]
    repeat' split
    all_goals exact ⟨h.seen, h.waiting, h.draining, h.returned⟩

end Awaited

/-- Who waits for the draining has seen the last version, if any, before it began, and who has
returned has seen it begun. -/
structure Phased (s : Lifecycle) : Prop where
  seen (waiter version : ℕ) : (s.phaseWaiters waiter).seen = some version → version ≤ s.version
  waiting (waiter version : ℕ) : s.phaseWaiters waiter = .waiting version →
    s.version ≤ version → s.phase < .draining
  returned (waiter : ℕ) : s.phaseWaiters waiter = .returned → .draining ≤ s.phase

section Phased

variable {s : Lifecycle} {waiter : ℕ}

theorem Phased.setPhaseWaiter (h : Phased s) {state : PhaseWaiter}
    (hseen : ∀ version, state.seen = some version → version ≤ s.version)
    (hwaiting : ∀ version, state = .waiting version → s.version ≤ version → s.phase < .draining)
    (hreturned : state = .returned → .draining ≤ s.phase) :
    Phased (s.setPhaseWaiter waiter state) := by
  have hset (other : ℕ) : (s.setPhaseWaiter waiter state).phaseWaiters other =
      if other = waiter then state else s.phaseWaiters other := Function.update_apply ..
  refine ⟨fun other version => ?_, fun other version => ?_, fun other => ?_⟩
  all_goals
    rw [hset]
    split
  · exact hseen version
  · exact h.seen other version
  · exact hwaiting version
  · exact h.waiting other version
  · exact hreturned
  · exact h.returned other

/-- A call that changes the phase makes a new version of it. -/
theorem version_perform (s : Lifecycle) (caller : ℕ) (call : GateCall) :
    (s.perform caller call).phase = s.phase ∧ (s.perform caller call).version = s.version ∨
      (s.perform caller call).version = s.version + 1 := by
  cases call with
  | tryAdmitForegroundWrite =>
    rw [perform]
    split <;> exact .inl ⟨rfl, rfl⟩
  | markReady =>
    rw [perform, markReady]
    split
    · exact .inr rfl
    · exact .inl ⟨rfl, rfl⟩
  | beginDraining =>
    rw [perform, beginDraining]
    split
    · exact .inr rfl
    · exact .inl ⟨rfl, rfl⟩
  | markStopped => exact .inr rfl

theorem Phased.perform (h : Phased s) (caller : ℕ) (call : GateCall) :
    Phased (s.perform caller call) := by
  have hphase := le_phase_perform s caller call
  have hversion := version_perform s caller call
  obtain ⟨phase, version, state, -, heq⟩ := perform_eq s caller call
  rw [heq] at hphase hversion ⊢
  dsimp only at hphase hversion
  refine ⟨fun waiter seen hseen => ?_, fun waiter seen hwaiting hle => ?_,
    fun waiter hreturned => (h.returned waiter hreturned).trans hphase⟩
  · refine (h.seen waiter seen hseen).trans ?_
    obtain ⟨-, hsame⟩ | hnext := hversion
    · exact hsame.ge
    · exact (Nat.le_succ _).trans hnext.ge
  · have hseen := h.seen waiter seen (by
      rw [show s.phaseWaiters waiter = .waiting seen from hwaiting]
      rfl)
    obtain ⟨hsame, hsameVersion⟩ | hnext := hversion
    · dsimp only at hle ⊢
      rw [hsame]
      exact h.waiting waiter seen hwaiting (hsameVersion ▸ hle)
    · dsimp only at hle
      omega

theorem Phased.step (h : Phased s) (event : Event) : Phased (s.step event) := by
  cases event with
  | perform caller =>
    simp only [Lifecycle.step]
    split
    · exact h.perform caller _
    · exact h
  | subscribe waiter =>
    simp only [Lifecycle.step]
    split
    · refine h.setPhaseWaiter ?_ nofun nofun
      rintro _ ⟨⟩
      exact le_rfl
    · exact h
  | borrow waiter =>
    simp only [Lifecycle.step]
    split
    · rename_i seen hchecking
      split
      · exact h.setPhaseWaiter nofun nofun fun _ => ‹_›
      · rename_i hbefore
        refine h.setPhaseWaiter (fun version hversion => ?_) (fun _ _ _ => not_le.mp hbefore) nofun
        exact h.seen waiter version (by rw [hchecking]; exact hversion)
    · exact h
  | changed waiter =>
    simp only [Lifecycle.step]
    split
    · split
      · refine h.setPhaseWaiter ?_ nofun nofun
        rintro _ ⟨⟩
        exact le_rfl
      · exact h
    · exact h
  | _ =>
    simp only [Lifecycle.step]
    repeat' split
    all_goals exact ⟨h.seen, h.waiting, h.returned⟩

end Phased

/-! ### Every run -/

structure Inv (s : Lifecycle) : Prop where
  gated : Gated s
  counted : Counted s
  awaited : Awaited s
  phased : Phased s

theorem Inv.step {s : Lifecycle} (h : Inv s) (event : Event) : Inv (s.step event) :=
  ⟨h.gated.step event, h.counted.step event, h.awaited.step h.gated h.counted event,
    h.phased.step event⟩

/-- A server is made starting or ready. -/
def IsNew (s : Lifecycle) : Prop := s = starting ∨ s = ready

theorem IsNew.inv {s : Lifecycle} (h : IsNew s) : Inv s := by
  obtain rfl | rfl := h
  · exact ⟨⟨nofun, nofun, nofun, nofun⟩, ⟨rfl, nofun⟩, ⟨nofun, nofun, nofun, nofun⟩,
      ⟨nofun, nofun, nofun⟩⟩
  · exact ⟨⟨nofun, nofun, nofun, nofun⟩, ⟨rfl, nofun⟩, ⟨nofun, nofun, nofun, nofun⟩,
      ⟨nofun, nofun, nofun⟩⟩

/-- Any run, whatever the steps and their order. -/
def Runs (s t : Lifecycle) : Prop := Reaches step (fun _ _ => True) s t

section Runs

variable {s t : Lifecycle}

theorem Runs.inv (h : Runs s t) (hs : Inv s) : Inv t :=
  h.invariant Inv hs fun _ event hinv _ => hinv.step event

theorem Runs.le_phase (h : Runs s t) : s.phase ≤ t.phase :=
  h.invariant (s.phase ≤ ·.phase) le_rfl fun _ event hle _ =>
    hle.trans (le_phase_step _ event)

/-- A call hands out a guard as it leaves the gate. -/
theorem Inv.handedOut_step (h : Inv s) (hbegun : .draining ≤ s.phase) (event : Event)
    {caller : ℕ} (hcaller : (s.step event).calls caller = .returned .tryAdmitForegroundWrite true) :
    s.calls caller = .returned .tryAdmitForegroundWrite true := by
  have hset (other : ℕ) (state : CallState) (hstate : state ≠ .returned .tryAdmitForegroundWrite true)
      (hcalls : (s.setCall other state).calls caller = .returned .tryAdmitForegroundWrite true) :
      s.calls caller = .returned .tryAdmitForegroundWrite true := by
    rw [calls_setCall] at hcalls
    split at hcalls
    · exact absurd hcalls hstate
    · exact hcalls
  cases event with
  | call other call =>
    simp only [Lifecycle.step] at hcaller
    split at hcaller
    · exact hset other (.locking call) nofun hcaller
    · exact hcaller
  | lock other =>
    simp only [Lifecycle.step] at hcaller
    split at hcaller
    · exact hset other (.holding _) nofun hcaller
    · exact hcaller
  | perform other =>
    simp only [Lifecycle.step] at hcaller
    split at hcaller
    · rename_i call _
      obtain ⟨phase, version, state, hin, heq⟩ := perform_eq s other call
      rw [heq] at hcaller
      refine hset other state ?_ hcaller
      rintro rfl
      cases hin
    · exact hcaller
  | fetchAdd other =>
    simp only [Lifecycle.step] at hcaller
    split at hcaller
    · exact hset other (.leaving .tryAdmitForegroundWrite true) nofun hcaller
    · exact hcaller
  | unlock other =>
    simp only [Lifecycle.step] at hcaller
    split at hcaller
    · rename_i call guard hleaving
      refine hset other (.returned call guard) ?_ hcaller
      rintro ⟨⟩
      have hready := h.gated.leaving other hleaving
      rw [hready] at hbegun
      exact absurd hbegun (by decide)
    · exact hcaller
  | _ =>
    simp only [Lifecycle.step] at hcaller
    repeat' split at hcaller
    all_goals exact hcaller

theorem Runs.handedOut (h : Runs s t) (hs : Inv s) (hbegun : .draining ≤ s.phase) {caller : ℕ}
    (hcaller : t.calls caller = .returned .tryAdmitForegroundWrite true) :
    s.calls caller = .returned .tryAdmitForegroundWrite true := by
  have hkept := h.invariant (fun u => (Inv u ∧ .draining ≤ u.phase) ∧
    (u.calls caller = .returned .tryAdmitForegroundWrite true →
      s.calls caller = .returned .tryAdmitForegroundWrite true)) ⟨⟨hs, hbegun⟩, id⟩
    fun u event ⟨⟨hinv, hphase⟩, hold⟩ _ => ⟨⟨hinv.step event, hphase.trans (le_phase_step u event)⟩,
      fun hnew => hold (hinv.handedOut_step hphase event hnew)⟩
  exact hkept.2 hcaller

end Runs

/-! ### No waiter is left waiting -/

section Wakes

variable (waiter : ℕ)

/-- Draining has begun, no guard is live and the waiter has started. -/
structure Drained (s : Lifecycle) : Prop where
  inv : Inv s
  begun : .draining ≤ s.phase
  guards : s.guards = ∅
  started : s.writeWaiters waiter ≠ .idle

def Returned (s : Lifecycle) : Prop := ∃ draining, s.writeWaiters waiter = .returned draining

/-- How far the waiter is from returning. -/
def stepsLeft (s : Lifecycle) : ℕ :=
  match s.writeWaiters waiter with
  | .looping _ => 2
  | .created _ _ => 1
  | .waiting _ notified => if notified < s.notifyWaitersCalls then 3 else 4
  | _ => 0

/-- What the waiter does next, or who wakes it. -/
inductive Helpful (s : Lifecycle) : Event → Prop
  | notified {draining : Bool} : s.writeWaiters waiter = .looping draining →
      Helpful s (.notified waiter)
  | load {draining : Bool} {notified : ℕ} : s.writeWaiters waiter = .created draining notified →
      Helpful s (.load waiter)
  | wake {draining : Bool} {notified : ℕ} : s.writeWaiters waiter = .waiting draining notified →
      notified < s.notifyWaitersCalls → Helpful s (.wake waiter)
  | notify {draining : Bool} {notified guard : ℕ} :
      s.writeWaiters waiter = .waiting draining notified → s.notifyWaitersCalls ≤ notified →
      guard ∈ s.notifying → Helpful s (.notifyWaiters guard)

variable {waiter} {s : Lifecycle}

theorem Drained.counter (h : Drained waiter s) : s.activeForegroundWrites = 0 := by
  rw [h.inv.counted.counter, h.guards, Finset.card_empty]

theorem Drained.exists_helpful (h : Drained waiter s) (hnot : ¬Returned waiter s) :
    ∃ event, Helpful waiter s event := by
  cases hstate : s.writeWaiters waiter with
  | idle => exact absurd hstate h.started
  | looping draining => exact ⟨_, .notified hstate⟩
  | created draining notified => exact ⟨_, .load hstate⟩
  | waiting draining notified =>
    by_cases hwoken : notified < s.notifyWaitersCalls
    · exact ⟨_, .wake hstate hwoken⟩
    · have hle := not_lt.mp hwoken
      obtain ⟨guard, hguard⟩ := (h.inv.awaited.waiting _ _ _ hstate hle).resolve_left
        fun hactive => hactive h.counter
      exact ⟨_, .notify hstate hle hguard⟩
  | returned draining => exact absurd ⟨draining, hstate⟩ hnot

/-- What helps does so at once. -/
theorem Drained.helps (h : Drained waiter s) {event : Event} (hevent : Helpful waiter s event) :
    Returned waiter (s.step event) ∨ stepsLeft waiter (s.step event) < stepsLeft waiter s := by
  have hset (state : WriteWaiter) : (s.setWriteWaiter waiter state).writeWaiters waiter = state := by
    rw [writeWaiters_setWriteWaiter, if_pos rfl]
  cases hevent with
  | notified hstate =>
    right
    simp only [step, hstate, stepsLeft, hset]
    decide
  | load hstate =>
    left
    simp only [step, hstate, h.counter, if_true]
    exact ⟨_, hset _⟩
  | wake hstate hwoken =>
    right
    simp only [step, hstate, stepsLeft, if_pos hwoken, hset]
    decide
  | notify hstate hle hguard =>
    right
    have hseen := h.inv.awaited.seen waiter _ (by rw [hstate]; rfl)
    simp only [step, if_pos hguard, stepsLeft, hstate, if_neg (not_lt.mpr hle),
      if_pos (Nat.lt_succ_of_le hseen)]
    decide

/-- The event does something to the waiter, or may do something to its notification. -/
def Event.touches (waiter : ℕ) : Event → Bool
  | .drop _ => true
  | .notifyWaiters _ => true
  | .waitForWrites other => other = waiter
  | .notified other => other = waiter
  | .load other => other = waiter
  | .wake other => other = waiter
  | _ => false

/-- What the waiter knows and waits for. -/
def Same (waiter : ℕ) (s t : Lifecycle) : Prop :=
  t.writeWaiters waiter = s.writeWaiters waiter ∧ t.notifyWaitersCalls = s.notifyWaitersCalls ∧
    t.notifying = s.notifying

theorem same_step {event : Event} (h : event.touches waiter = false) :
    Same waiter s (s.step event) := by
  have hset (other : ℕ) (state : WriteWaiter) (hother : decide (other = waiter) = false) :
      Same waiter s (s.setWriteWaiter other state) := by
    refine ⟨?_, rfl, rfl⟩
    rw [writeWaiters_setWriteWaiter, if_neg (Ne.symm (of_decide_eq_false hother))]
  cases event with
  | drop guard => cases h
  | notifyWaiters guard => cases h
  | perform caller =>
    simp only [step]
    split
    · obtain ⟨phase, version, state, -, heq⟩ := perform_eq s caller _
      rw [heq]
      exact ⟨rfl, rfl, rfl⟩
    · exact ⟨rfl, rfl, rfl⟩
  | _ =>
    simp only [step]
    repeat' split
    all_goals first | exact ⟨rfl, rfl, rfl⟩ | exact hset _ _ h

theorem Same.stepsLeft {t : Lifecycle} (h : Same waiter s t) :
    stepsLeft waiter t = stepsLeft waiter s := by
  rw [Lifecycle.stepsLeft, Lifecycle.stepsLeft, h.1, h.2.1]

theorem Same.helpful {t : Lifecycle} (h : Same waiter s t) {event : Event}
    (hevent : Helpful waiter s event) : Helpful waiter t event := by
  obtain ⟨hwaiter, hcalls, hnotifying⟩ := h
  cases hevent with
  | notified hstate => exact .notified (hwaiter.trans hstate)
  | load hstate => exact .load (hwaiter.trans hstate)
  | wake hstate hwoken => exact .wake (hwaiter.trans hstate) (hcalls ▸ hwoken)
  | notify hstate hle hguard =>
    exact .notify (hwaiter.trans hstate) (hcalls ▸ hle) (hnotifying ▸ hguard)

/-- A notification wakes the waiter, or comes too early or too late for it. -/
theorem Drained.notifies (h : Drained waiter s) {event : Event} (hevent : Helpful waiter s event)
    {guard : ℕ} (hguard : guard ∈ s.notifying) :
    stepsLeft waiter (s.step (.notifyWaiters guard)) < stepsLeft waiter s ∨
      stepsLeft waiter (s.step (.notifyWaiters guard)) = stepsLeft waiter s ∧
        Helpful waiter (s.step (.notifyWaiters guard)) event := by
  simp only [step, if_pos hguard]
  cases hevent with
  | notified hstate => exact .inr ⟨by simp only [stepsLeft, hstate], .notified hstate⟩
  | load hstate => exact .inr ⟨by simp only [stepsLeft, hstate], .load hstate⟩
  | wake hstate hwoken =>
    have hlater := Nat.lt_succ_of_lt hwoken
    exact .inr ⟨by simp only [stepsLeft, hstate, if_pos hwoken, if_pos hlater],
      .wake hstate hlater⟩
  | notify hstate hle _ =>
    have hseen := h.inv.awaited.seen waiter _ (by rw [hstate]; rfl)
    left
    simp only [stepsLeft, hstate, if_neg (not_lt.mpr hle), if_pos (Nat.lt_succ_of_le hseen)]
    decide

/-- An event of the waiter that is not its next one does nothing. -/
theorem Drained.idle_step (h : Drained waiter s) {event other : Event}
    (hevent : Helpful waiter s event) (hne : other ≠ event)
    (hother : other = .waitForWrites waiter ∨ other = .notified waiter ∨ other = .load waiter ∨
      other = .wake waiter) : s.step other = s := by
  have hstarted := h.started
  -- The state that the event needs is not the one that what helps has found.
  obtain rfl | rfl | rfl | rfl := hother <;> simp only [step] <;> cases hevent <;>
    simp_all only [ne_eq, not_true_eq_false, if_false, not_lt.mpr]

/-- Any other event leaves the waiter what helps it, or helps it too. -/
theorem Drained.others (h : Drained waiter s) {event other : Event}
    (hevent : Helpful waiter s event) (hne : other ≠ event) :
    stepsLeft waiter (s.step other) < stepsLeft waiter s ∨
      stepsLeft waiter (s.step other) = stepsLeft waiter s ∧
        Helpful waiter (s.step other) event := by
  have hidle (hstep : s.step other = s) : stepsLeft waiter (s.step other) = stepsLeft waiter s ∧
      Helpful waiter (s.step other) event := by
    rw [hstep]
    exact ⟨rfl, hevent⟩
  cases htouches : other.touches waiter with
  | false =>
    have hsame : Same waiter s (s.step other) := same_step htouches
    exact .inr ⟨hsame.stepsLeft, hsame.helpful hevent⟩
  | true =>
    cases other with
    | drop guard =>
      have hguard : ¬(guard ∈ s.guards ∧
          s.calls guard = .returned .tryAdmitForegroundWrite true) := by
        rw [h.guards]
        exact fun hguard => absurd hguard.1 (Finset.notMem_empty guard)
      exact .inr (hidle (if_neg hguard))
    | notifyWaiters guard =>
      by_cases hguard : guard ∈ s.notifying
      · exact h.notifies hevent hguard
      · exact .inr (hidle (if_neg hguard))
    | waitForWrites other =>
      obtain rfl := of_decide_eq_true htouches
      exact .inr (hidle (h.idle_step hevent hne (.inl rfl)))
    | notified other =>
      obtain rfl := of_decide_eq_true htouches
      exact .inr (hidle (h.idle_step hevent hne (.inr (.inl rfl))))
    | load other =>
      obtain rfl := of_decide_eq_true htouches
      exact .inr (hidle (h.idle_step hevent hne (.inr (.inr (.inl rfl)))))
    | wake other =>
      obtain rfl := of_decide_eq_true htouches
      exact .inr (hidle (h.idle_step hevent hne (.inr (.inr (.inr rfl)))))
    | _ => cases htouches

theorem started_step (h : s.writeWaiters waiter ≠ .idle) (event : Event) :
    (s.step event).writeWaiters waiter ≠ .idle := by
  have hset (other : ℕ) (state : WriteWaiter) (hstate : state ≠ .idle) :
      (s.setWriteWaiter other state).writeWaiters waiter ≠ .idle := by
    rw [writeWaiters_setWriteWaiter]
    split
    · exact hstate
    · exact h
  cases htouches : event.touches waiter with
  | false =>
    have hsame : Same waiter s (s.step event) := same_step htouches
    rw [hsame.1]
    exact h
  | true =>
    cases event
    all_goals
      simp only [step]
      repeat' split
      all_goals first | exact h | exact hset _ _ nofun | cases htouches

/-- After draining has begun no write is admitted. -/
theorem Inv.guards_step (h : Inv s) (hbegun : .draining ≤ s.phase) (event : Event) :
    (s.step event).guards ⊆ s.guards := by
  cases event with
  | perform caller =>
    simp only [Lifecycle.step]
    split
    · obtain ⟨phase, version, state, -, heq⟩ := perform_eq s caller _
      rw [heq]
      exact Finset.Subset.refl _
    · exact Finset.Subset.refl _
  | fetchAdd caller =>
    simp only [Lifecycle.step]
    split
    · rename_i hadmitting
      rw [h.gated.admitting caller hadmitting] at hbegun
      exact absurd hbegun (by decide)
    · exact Finset.Subset.refl _
  | drop guard =>
    simp only [Lifecycle.step]
    split
    · exact Finset.erase_subset guard s.guards
    · exact Finset.Subset.refl _
  | _ =>
    simp only [Lifecycle.step]
    repeat' split
    all_goals exact Finset.Subset.refl _

theorem Drained.step (h : Drained waiter s) (event : Event) : Drained waiter (s.step event) where
  inv := h.inv.step event
  begun := h.begun.trans (le_phase_step s event)
  guards := by
    have hsub := h.inv.guards_step h.begun event
    rw [h.guards] at hsub
    exact Finset.subset_empty.mp hsub
  started := started_step h.started event

theorem Drained.enabled (h : Drained waiter s) {event : Event} (hnot : ¬Returned waiter s)
    (hevent : Helpful waiter s event) : s.step event ≠ s := by
  intro hsame
  obtain hreturned | hlt := h.helps hevent
  · exact hnot (hsame ▸ hreturned)
  · rw [hsame] at hlt
    exact lt_irrefl _ hlt

theorem helps_waiter (waiter : ℕ) : Behaviour.Helps Lifecycle.step (Drained waiter)
    (Returned waiter) (stepsLeft waiter) (Helpful waiter) where
  invariant _ event h := h.step event
  exists_helpful _ h hnot := h.exists_helpful hnot
  enabled _ _ h hnot hevent := h.enabled hnot hevent
  progress s event other h _ hevent := by
    by_cases hsame : other = event
    · rw [hsame]
      exact (h.helps hevent).imp_right .inl
    · refine .inr ((h.others hevent hsame).imp_right fun hkept => ?_)
      exact ⟨hkept.1, hkept.2, hsame⟩

/-- The waiter is scheduled, and who drops a guard finishes. -/
structure Scheduled (run : Behaviour Lifecycle.step) (waiter : ℕ) : Prop where
  notified : run.Fair (.notified waiter)
  load : run.Fair (.load waiter)
  wake : run.Fair (.wake waiter)
  notifyWaiters (guard : ℕ) : run.Fair (.notifyWaiters guard)

theorem Scheduled.returns {run : Behaviour Lifecycle.step} (h : Scheduled run waiter) {n : ℕ}
    (hdrained : Drained waiter (run.states n)) : ∃ m, n ≤ m ∧ Returned waiter (run.states m) := by
  refine (helps_waiter waiter).eventually (fun s event hevent => ?_) hdrained
  cases hevent with
  | notified _ => exact h.notified
  | load _ => exact h.load
  | wake _ _ => exact h.wake
  | notify _ _ _ => exact h.notifyWaiters _

end Wakes

/-! ### The barrier -/

/-- What holds of a state of a run, and of all that come after it. -/
structure Barrier (s : Lifecycle) : Prop where
  counter : s.activeForegroundWrites = s.guards.card
  le_phase (t : Lifecycle) : Runs s t → s.phase ≤ t.phase
  closed (t : Lifecycle) (drainer caller : ℕ) (guard : Bool) : Runs s t →
    s.calls drainer = .returned .beginDraining guard →
    t.calls caller = .returned .tryAdmitForegroundWrite true →
    s.calls caller = .returned .tryAdmitForegroundWrite true
  drained (waiter : ℕ) : s.writeWaiters waiter = .returned true → s.guards = ∅
  draining (waiter : ℕ) : s.phaseWaiters waiter = .returned → .draining ≤ s.phase
  woken (waiter version : ℕ) : s.phaseWaiters waiter = .waiting version → .draining ≤ s.phase →
    version < s.version

theorem Inv.barrier {s : Lifecycle} (h : Inv s) : Barrier s where
  counter := h.counted.counter
  le_phase _ hruns := hruns.le_phase
  closed _ drainer _ guard hruns hdrainer hcaller :=
    hruns.handedOut h (h.gated.begun drainer guard (.inr hdrainer)) hcaller
  drained := h.awaited.returned
  draining := h.phased.returned
  woken waiter version hwaiting hbegun :=
    not_le.mp fun hle => absurd hbegun (not_le.mpr (h.phased.waiting waiter version hwaiting hle))

/-- Admitted writes are counted, draining shuts the gate for good, and who waits for the last
write does so no longer and no shorter. -/
theorem drain_barrier {start : Lifecycle} (hstart : IsNew start) :
    (∀ s, Runs start s → Barrier s) ∧
      ∀ (run : Behaviour Lifecycle.step) (waiter n : ℕ), run.states 0 = start →
        Scheduled run waiter → .draining ≤ (run.states n).phase → (run.states n).guards = ∅ →
        (run.states n).writeWaiters waiter ≠ .idle →
        ∃ m, n ≤ m ∧ Returned waiter (run.states m) := by
  refine ⟨fun s hruns => (hruns.inv hstart.inv).barrier, ?_⟩
  intro run waiter n hfirst hscheduled hbegun hguards hstarted
  have hreaches := run.reaches n
  rw [hfirst] at hreaches
  exact hscheduled.returns ⟨Runs.inv hreaches hstart.inv, hbegun, hguards, hstarted⟩

theorem drain_barrier_starting :
    (∀ s, Runs starting s → Barrier s) ∧
      ∀ (run : Behaviour Lifecycle.step) (waiter n : ℕ), run.states 0 = starting →
        Scheduled run waiter → .draining ≤ (run.states n).phase → (run.states n).guards = ∅ →
        (run.states n).writeWaiters waiter ≠ .idle →
        ∃ m, n ≤ m ∧ Returned waiter (run.states m) :=
  drain_barrier (.inl rfl)

end Lifecycle

end Ketebe
