import Ketebe.Jobs
import Ketebe.Lib.ByteCodec
import Ketebe.Lib.Runs
import Ketebe.Lib.Tally

/-!
What the counters of the jobs say. Each job has a share in the gauges, which its record,
its task and the calls about it determine. A step changes a gauge by as much as the share
of its job, unless it writes a record that a call has cancelled in the meantime.
-/
namespace Ketebe

open Lib.ByteCodec Lib.Runs Lib.Tally

/-! ### Shares -/

/-- By how much the gauge of queued jobs is ahead of the record. -/
def JobPhase.queueDebt : JobPhase → ℤ
  | .installing | .counting | .failingUpdate _ _ _ .queued => -1
  | .uncounting | .leavingQueue => 1
  | _ => 0

/-- By how much the gauge of running jobs is ahead of the record. -/
def JobPhase.runningDebt : JobPhase → ℤ
  | .leavingQueue | .entering | .failingUpdate _ _ _ .running => -1
  | .leaving => 1
  | _ => 0

/-- The terminal counter that the task has yet to increment. -/
def JobPhase.owes : JobPhase → Option JobState
  | .uncounting | .countingCancelled => some .cancelled
  | .leaving | .countingCompleted => some .completed
  | .countingFailed _ => some .failed
  | _ => none

namespace CancelPhase

/-- The call decrements the gauge of queued jobs. -/
def leavesQueue : CancelPhase → Bool
  | .uncounting _ => true
  | _ => false

/-- The call has yet to count a cancelled job. -/
def owes : CancelPhase → Bool
  | .uncounting _ | .counting _ => true
  | _ => false

end CancelPhase

def one (holds : Prop) [Decidable holds] : ℤ := if holds then 1 else 0

namespace Job

def queueShare (job : Job) : ℤ :=
  one (job.record.state = .queued) + job.task.elim 0 JobPhase.queueDebt +
    job.calls.countP CancelPhase.leavesQueue

def runningShare (job : Job) : ℤ :=
  one (job.record.state = .running) + job.task.elim 0 JobPhase.runningDebt

end Job

/-- The states of the record that a task can find at a point. -/
def JobPhase.Fits (state : JobState) : JobPhase → Prop
  | .installing | .counting | .waiting | .reading | .abandoning | .starting =>
      state = .queued ∨ state = .cancelled
  | .loading current => (state = .queued ∨ state = .cancelled) ∧ ∃ record, current = .ok record ∧
      (record.state = .queued ∨ record.state = .cancelled ∧ state = .cancelled)
  | .uncounting | .countingCancelled => state = .cancelled
  | .leavingQueue | .entering | .running | .completing _ => state = .running
  | .leaving | .countingCompleted => state = .completed
  | .failing _ _ _ => state = .queued ∨ state = .cancelled ∨ state = .running
  | .failingRead _ _ _ seen | .failingUpdate _ _ _ seen =>
      seen = .queued ∧ (state = .queued ∨ state = .cancelled) ∨
        seen = .cancelled ∧ state = .cancelled ∨ seen = .running ∧ state = .running
  | .countingFailed _ => state = .failed
  | .removing | .done => state.Terminal

/-- The states of the record that a call can find at a point. -/
def CancelPhase.Fits (state : JobState) : CancelPhase → Prop
  | .requesting false | .updating false => state ≠ .queued
  | .uncounting _ | .counting _ => state = .cancelled
  | .answered (.ok record) => record.state = .cancelled → state = .cancelled
  | _ => True

/-- What a call has found remains so, as no job is queued again. -/
theorem CancelPhase.Fits.mono {phase : CancelPhase} {state after : JobState} (h : phase.Fits state)
    (hafter : after = state ∨ ¬state.Terminal ∧ after ≠ .queued) : phase.Fits after := by
  rcases hafter with rfl | ⟨hlive, hnot⟩
  · exact h
  · have hcancelled : state ≠ .cancelled := fun hstate => hlive (.inr (.inr hstate))
    cases phase with
    | reading => trivial
    | requesting wasQueued | updating wasQueued =>
      cases wasQueued with
      | false => exact hnot
      | true => trivial
    | uncounting | counting => exact absurd h hcancelled
    | answered result =>
      cases result with
      | ok record => exact fun hrecord => absurd (h hrecord) hcancelled
      | error => trivial

theorem CancelPhase.Fits.returned {phase : CancelPhase} {state : JobState} (h : phase.Fits state)
    (hreturns : phase.returnsCancelled = true) : state = .cancelled := by
  cases phase with
  | answered result =>
    cases result with
    | ok record => exact h (of_decide_eq_true hreturns)
    | error => cases hreturns
  | _ => cases hreturns

/-- A job whose record agrees with its task, its calls and its history. -/
structure Job.Sound (id : ℕ) (job : Job) : Prop where
  version : job.record.version = jobVersion
  identity : job.record.id = id
  positive : id ≠ 0
  fits : ∀ phase, job.task = some phase → phase.Fits job.record.state ∧ job.ofProcess = true
  idle : job.task = none → job.record.state.Terminal
  calls : ∀ call ∈ job.calls, call.Fits job.record.state
  counted : ∀ state, job.counted.count state +
      (if job.task.bind JobPhase.owes = some state then 1 else 0) +
      (if state = .cancelled then job.calls.countP CancelPhase.owes else 0) =
    if job.ofProcess = true ∧ state.Terminal ∧ job.record.state = state then 1 else 0
  ran : job.ran = true → job.record.state = .running ∨ job.record.state = .completed ∨
    job.record.state = .failed
  returned : job.returnedCancelled = true → job.record.state = .cancelled

/-- A step that leaves the job sound and changes the gauges by what it changes of the shares. -/
structure Job.Moves (id : ℕ) (job after : Job) (gauges gaugesAfter : Gauges) : Prop where
  sound : after.Sound id
  queued : (gaugesAfter.queued : ℤ) + job.queueShare = gauges.queued + after.queueShare
  running : (gaugesAfter.running : ℤ) + job.runningShare = gauges.running + after.runningShare
  kept : job.record.state.Terminal → after.record.state = job.record.state

namespace Job.Sound

variable {id now : ℕ} {job : Job} {gauges gaugesAfter : Gauges}

theorem validate (h : job.Sound id) : validateRecord job.record = .ok () := by
  unfold validateRecord newJobId
  rw [if_neg (not_not.mpr h.version), if_neg (h.identity ▸ h.positive)]
  rfl

theorem get (h : job.Sound id) : job.get id = .ok job.record := by
  unfold Job.get
  rw [h.validate, if_neg (not_not.mpr h.identity)]
  rfl

theorem update (h : job.Sound id) (change : JobRecord → JobRecord) :
    job.update id now change = .ok { change job.record with updatedAtUnixMs := now } := by
  unfold Job.update
  rw [h.get]
  rfl

/-- The rule for a step of the task: it writes the record or counts a terminal state. -/
theorem taskMoves (h : job.Sound id) {old : JobPhase} (htask : job.task = some old)
    (record : JobRecord) (new : JobPhase) (counted : List JobState) {cancellation : Option Bool}
    {ran : Bool}
    (hversion : record.version = job.record.version) (hid : record.id = job.record.id)
    (hfits : new.Fits record.state)
    (hstate : record.state = job.record.state ∨ ¬job.record.state.Terminal ∧ record.state ≠ .queued)
    (hran : ran = true → record.state = .running ∨ record.state = .completed ∨
      record.state = .failed)
    (hcounted : ∀ state, counted.count state + (if new.owes = some state then 1 else 0) +
      (if state.Terminal ∧ job.record.state = state then 1 else 0) = job.counted.count state +
        (if old.owes = some state then 1 else 0) +
        (if state.Terminal ∧ record.state = state then 1 else 0))
    (hqueued : (gaugesAfter.queued : ℤ) + one (job.record.state = .queued) + old.queueDebt =
      gauges.queued + one (record.state = .queued) + new.queueDebt)
    (hrunning : (gaugesAfter.running : ℤ) + one (job.record.state = .running) + old.runningDebt =
      gauges.running + one (record.state = .running) + new.runningDebt) :
    job.Moves id { job with record, cancellation, task := some new, counted, ran } gauges
      gaugesAfter := by
  have hown := (h.fits old htask).2
  have hcancelled : job.record.state = .cancelled → record.state = .cancelled := by
    intro hcancelled
    rcases hstate with hsame | hnot
    · rw [hsame, hcancelled]
    · exact absurd (.inr (.inr hcancelled)) hnot.1
  refine ⟨⟨hversion.trans h.version, hid.trans h.identity, h.positive, ?_, ?_, ?_, ?_, hran, ?_⟩,
    ?_, ?_, ?_⟩
  · rintro phase ⟨⟩
    exact ⟨hfits, hown⟩
  · rintro ⟨⟩
  · exact fun call hcall => (h.calls call hcall).mono hstate
  · intro state
    have hbefore := h.counted state
    have hafter := hcounted state
    rw [htask, Option.bind_some] at hbefore
    simp only [hown, true_and] at hbefore ⊢
    show counted.count state + (if new.owes = some state then 1 else 0) + _ = _
    omega
  · exact fun hreturned => hcancelled (h.returned hreturned)
  · rw [Job.queueShare, Job.queueShare, htask]
    show (gaugesAfter.queued : ℤ) + (one (job.record.state = .queued) + old.queueDebt +
        job.calls.countP CancelPhase.leavesQueue) = gauges.queued +
      (one (record.state = .queued) + new.queueDebt + job.calls.countP CancelPhase.leavesQueue)
    omega
  · rw [Job.runningShare, Job.runningShare, htask]
    show (gaugesAfter.running : ℤ) + (one (job.record.state = .running) + old.runningDebt) =
      gauges.running + (one (record.state = .running) + new.runningDebt)
    omega
  · intro hterminal
    exact hstate.resolve_right fun hlive => hlive.1 hterminal

/-- The rule for a step that only moves the task on. -/
theorem goto (h : job.Sound id) {old new : JobPhase} (htask : job.task = some old)
    {cancellation : Option Bool} (hfits : new.Fits job.record.state)
    (howes : new.owes = old.owes)
    (hqueued : (gaugesAfter.queued : ℤ) + old.queueDebt = gauges.queued + new.queueDebt)
    (hrunning : (gaugesAfter.running : ℤ) + old.runningDebt = gauges.running + new.runningDebt) :
    job.Moves id { job with cancellation, task := some new } gauges gaugesAfter := by
  refine h.taskMoves htask job.record new job.counted rfl rfl hfits (.inl rfl) h.ran
    (fun state => by rw [howes]) ?_ ?_
  · omega
  · omega

end Job.Sound

/-! ### Steps of a task -/

/-- The task writes the record. -/
def JobPhase.writes : JobPhase → Bool
  | .abandoning | .starting | .completing _ | .failingUpdate _ _ _ _ => true
  | _ => false

/-- The task decrements the gauge of queued jobs. -/
def JobPhase.leavesQueue : JobPhase → Bool
  | .uncounting | .leavingQueue | .failingRead _ _ _ .queued => true
  | _ => false

namespace Job.Sound

variable {id now : ℕ} {job : Job} {gauges : Gauges}

/-- The gauge of running jobs counts at least a job that has yet to leave it. -/
theorem runningShare_nonneg (h : job.Sound id) : 0 ≤ job.runningShare := by
  unfold Job.runningShare one
  cases htask : job.task with
  | none => split <;> simp
  | some phase =>
    have hfits := (h.fits phase htask).1
    cases phase with
    | failingUpdate code message removes seen =>
      rcases hfits with ⟨rfl, -⟩ | ⟨rfl, -⟩ | ⟨rfl, hstate⟩
      · split <;> simp [JobPhase.runningDebt]
      · split <;> simp [JobPhase.runningDebt]
      · simp [hstate, JobPhase.runningDebt]
    | leavingQueue | entering => 
      have hstate : job.record.state = .running := hfits
      simp [hstate, JobPhase.runningDebt]
    | _ => split <;> simp [JobPhase.runningDebt]

/-- A task that has counted a state goes on. -/
theorem countMoves (h : job.Sound id) {old : JobPhase} (htask : job.task = some old)
    (state : JobState) (new : JobPhase) (howes : old.owes = some state) (hnew : new.owes = none)
    (hfits : new.Fits job.record.state) (hold : old.queueDebt = 0 ∧ old.runningDebt = 0)
    (hdebt : new.queueDebt = 0 ∧ new.runningDebt = 0) :
    job.Moves id ((job.count state).goto new) gauges gauges := by
  refine h.taskMoves htask job.record new (job.counted ++ [state]) rfl rfl hfits (.inl rfl) h.ran
    (fun other => ?_) ?_ ?_
  · rw [howes, hnew, List.count_append, List.count_singleton]
    by_cases hsame : state = other
    · simp [hsame]
    · simp [hsame]
  · omega
  · omega

/-- The rule for a step that writes a new state of a job that has not ended. -/
theorem writeMoves (h : job.Sound id) {old : JobPhase} (htask : job.task = some old)
    (before after : JobState) (new : JobPhase) {record : JobRecord} (hversion : record.version = job.record.version)
    (hid : record.id = job.record.id) (hbefore : job.record.state = before)
    (hafter : record.state = after) (hlive : ¬before.Terminal ∧ after ≠ .queued)
    (hfits : new.Fits after)
    (hran : before = .running → after = .running ∨ after = .completed ∨ after = .failed)
    (howes : old.owes = none) (hnew : new.owes = if after.Terminal then some after else none)
    (hqueued : one (before = .queued) + old.queueDebt = one (after = .queued) + new.queueDebt)
    (hrunning : one (before = .running) + old.runningDebt =
      one (after = .running) + new.runningDebt) :
    job.Moves id ({ job with record }.goto new) gauges gauges := by
  subst hbefore hafter
  refine h.taskMoves htask record new job.counted hversion hid hfits (.inr hlive)
    (fun hran' => hran ?_) (fun other => ?_) ?_ ?_
  · rcases h.ran hran' with hstate | hstate | hstate
    · exact hstate
    · exact absurd (.inl hstate) hlive.1
    · exact absurd (.inr (.inl hstate)) hlive.1
  · have hother : ¬(other.Terminal ∧ job.record.state = other) := fun h => hlive.1 (h.2 ▸ h.1)
    rw [howes, hnew, if_neg hother]
    by_cases hsame : record.state = other
    · subst hsame
      by_cases hended : record.state.Terminal
      · simp [hended]
      · simp [hended]
    · by_cases hended : record.state.Terminal
      · simp [hended, hsame]
      · simp [hended, hsame]
  · omega
  · omega

theorem advance (h : job.Sound id) {phase : JobPhase} (htask : job.task = some phase)
    (hwrites : phase.writes = true → job.record.state ≠ .cancelled)
    (hleaves : phase.leavesQueue = true → gauges.queued ≠ 0)
    (hrunning : job.runningShare ≤ gauges.running) :
    job.Moves id (job.advance id now gauges phase).1 gauges (job.advance id now gauges phase).2 := by
  have hfits := (h.fits phase htask).1
  cases phase with
  | installing => exact h.goto htask hfits rfl rfl rfl
  | counting =>
    refine h.goto htask hfits rfl ?_ rfl
    show ((gauges.queued + 1 : ℕ) : ℤ) + -1 = gauges.queued + 0
    omega
  | waiting | running | done => exact ⟨h, rfl, rfl, fun _ => rfl⟩
  | reading =>
    refine h.goto htask ⟨hfits, job.record, h.get, ?_⟩ rfl rfl rfl
    exact hfits.imp_right fun hcancelled => ⟨hcancelled, hcancelled⟩
  | loading current =>
    obtain ⟨hstate, record, rfl, hrecord⟩ := hfits
    unfold Job.advance
    dsimp only
    split
    · split
      · exact h.goto htask hstate rfl rfl rfl
      · rename_i hnot
        have hcancelled := (hrecord.resolve_left fun hqueued => hnot (congrArg some hqueued)).2
        exact h.goto htask (.inr (.inr hcancelled)) rfl rfl rfl
    · exact h.goto htask hstate rfl rfl rfl
  | abandoning =>
    have hqueued := hfits.resolve_right (hwrites rfl)
    unfold Job.advance
    dsimp only
    rw [h.update]
    exact h.writeMoves htask .queued .cancelled .uncounting rfl rfl hqueued rfl (by decide) rfl
      (by decide) rfl rfl rfl rfl
  | uncounting =>
    have hpos := hleaves rfl
    refine h.goto htask hfits rfl ?_ rfl
    show ((gauges.queued - 1 : ℕ) : ℤ) + 1 = gauges.queued + 0
    omega
  | countingCancelled =>
    exact h.countMoves htask .cancelled .removing rfl rfl (.inr (.inr hfits)) ⟨rfl, rfl⟩
      ⟨rfl, rfl⟩
  | starting =>
    have hqueued := hfits.resolve_right (hwrites rfl)
    have hstart : job.record.start.version = job.record.version ∧
        job.record.start.id = job.record.id ∧ job.record.start.state = .running := by
      unfold JobRecord.start
      split <;> exact ⟨rfl, rfl, rfl⟩
    obtain ⟨hversion, hid, hstate⟩ := hstart
    unfold Job.advance
    dsimp only
    rw [h.update]
    exact h.writeMoves htask .queued .running .leavingQueue hversion hid hqueued hstate (by decide) rfl
      (by decide) rfl rfl rfl rfl
  | leavingQueue =>
    have hpos := hleaves rfl
    refine h.goto htask hfits rfl ?_ rfl
    show ((gauges.queued - 1 : ℕ) : ℤ) + 1 = gauges.queued + 0
    omega
  | entering =>
    have hstate : job.record.state = .running := hfits
    refine h.taskMoves htask job.record .running job.counted rfl rfl hstate (.inl rfl)
      (fun _ => .inl hstate) (fun _ => rfl) rfl ?_
    show ((gauges.running + 1 : ℕ) : ℤ) + _ + -1 = gauges.running + _ + 0
    omega
  | completing report =>
    have hcomplete : (job.record.complete report).version = job.record.version ∧
        (job.record.complete report).id = job.record.id ∧
          (job.record.complete report).state = .completed := by
      unfold JobRecord.complete
      split <;> exact ⟨rfl, rfl, rfl⟩
    obtain ⟨hversion, hid, hstate⟩ := hcomplete
    unfold Job.advance
    dsimp only
    rw [h.update]
    exact h.writeMoves htask .running .completed .leaving hversion hid hfits hstate (by decide) rfl
      (by decide) rfl rfl rfl rfl
  | leaving =>
    have hstate : job.record.state = .completed := hfits
    have hpos : 1 ≤ gauges.running := by
      simp [Job.runningShare, htask, hstate, JobPhase.runningDebt, one] at hrunning
      omega
    refine h.goto htask hfits rfl rfl ?_
    show ((gauges.running - 1 : ℕ) : ℤ) + 1 = gauges.running + 0
    omega
  | countingCompleted => 
    exact h.countMoves htask .completed .removing rfl rfl (.inl hfits) ⟨rfl, rfl⟩ ⟨rfl, rfl⟩
  | failing code message removes =>
    unfold Job.advance
    dsimp only
    rw [h.get]
    refine h.goto htask ?_ rfl rfl rfl
    rcases hfits with hqueued | hcancelled | hrunning
    · exact .inl ⟨hqueued, .inl hqueued⟩
    · exact .inr (.inl ⟨hcancelled, hcancelled⟩)
    · exact .inr (.inr ⟨hrunning, hrunning⟩)
  | failingRead code message removes seen =>
    rcases hfits with ⟨rfl, hstate⟩ | ⟨rfl, hstate⟩ | ⟨rfl, hstate⟩
    · have hpos := hleaves rfl
      refine h.goto htask (.inl ⟨rfl, hstate⟩) rfl ?_ rfl
      show ((gauges.queued - 1 : ℕ) : ℤ) + 0 = gauges.queued + -1
      omega
    · exact h.goto htask (.inr (.inl ⟨rfl, hstate⟩)) rfl rfl rfl
    · have hpos : 1 ≤ gauges.running := by
        simp [Job.runningShare, htask, hstate, JobPhase.runningDebt, one] at hrunning
        omega
      refine h.goto htask (.inr (.inr ⟨rfl, hstate⟩)) rfl rfl ?_
      show ((gauges.running - 1 : ℕ) : ℤ) + 0 = gauges.running + -1
      omega
  | failingUpdate code message removes seen =>
    unfold Job.advance
    dsimp only
    rw [h.update]
    have hlive := hwrites rfl
    rcases hfits with ⟨rfl, hstate⟩ | ⟨rfl, hstate⟩ | ⟨rfl, hstate⟩
    · have hqueued := hstate.resolve_right hlive
      exact h.writeMoves htask .queued .failed (.countingFailed removes) rfl rfl hqueued rfl
        (by decide) rfl (by decide) rfl rfl rfl rfl
    · exact absurd hstate hlive
    · exact h.writeMoves htask .running .failed (.countingFailed removes) rfl rfl hstate rfl
        (by decide) rfl (by decide) rfl rfl rfl rfl
  | countingFailed removes =>
    have hended : (Job.afterFailure removes).Fits job.record.state ∧
        (Job.afterFailure removes).owes = none ∧ (Job.afterFailure removes).queueDebt = 0 ∧
          (Job.afterFailure removes).runningDebt = 0 := by
      cases removes <;> exact ⟨.inr (.inl hfits), rfl, rfl, rfl⟩
    exact h.countMoves htask .failed (Job.afterFailure removes) rfl hended.2.1 hended.1 ⟨rfl, rfl⟩
      hended.2.2
  | removing => exact h.goto htask hfits rfl rfl rfl

theorem admitTask (h : job.Sound id) (admission : Admission) :
    job.Moves id (job.admitTask admission) gauges gauges := by
  unfold Job.admitTask
  split
  · rename_i htask
    have hfits := (h.fits _ htask).1
    have hfailing : job.record.state = .queued ∨ job.record.state = .cancelled ∨
        job.record.state = .running := hfits.imp_right .inl
    cases admission with
    | admitted => exact h.goto htask hfits rfl rfl rfl
    | executorShutdown | resourceUnavailable error => exact h.goto htask hfailing rfl rfl rfl
  · exact ⟨h, rfl, rfl, fun _ => rfl⟩

theorem finishBody (h : job.Sound id) (outcome : Except String JobReport) :
    job.Moves id (job.finishBody outcome) gauges gauges := by
  unfold Job.finishBody
  split
  · rename_i htask
    have hfits := (h.fits _ htask).1
    cases outcome with
    | ok report => exact h.goto htask hfits rfl rfl rfl
    | error message => exact h.goto htask (.inr (.inr hfits)) rfl rfl rfl
  · exact ⟨h, rfl, rfl, fun _ => rfl⟩

end Job.Sound

/-! ### Steps of a call -/

/-- The call writes the record. -/
def CancelPhase.writes : CancelPhase → Bool
  | .updating _ => true
  | _ => false

/-- A task that has not looked at its job again may find it cancelled. -/
theorem JobPhase.Fits.cancel {phase : JobPhase} (h : phase.Fits .queued) : phase.Fits .cancelled := by
  cases phase with
  | installing | counting | waiting | reading | abandoning | starting => exact .inr rfl
  | loading current =>
    obtain ⟨-, record, hcurrent, hrecord⟩ := h
    exact ⟨.inr rfl, record, hcurrent, hrecord.imp_right fun hcancelled => ⟨hcancelled.1, rfl⟩⟩
  | failing => exact .inr (.inl rfl)
  | failingRead code message removes seen | failingUpdate code message removes seen =>
    rcases h with ⟨hseen, -⟩ | ⟨-, hstate⟩ | ⟨-, hstate⟩
    · exact .inl ⟨hseen, .inr rfl⟩
    · cases hstate
    · cases hstate
  | removing | done =>
    have hended : JobState.queued.Terminal := h
    exact absurd hended (by decide)
  | _ => cases h

namespace Job.Sound

variable {id now : ℕ} {job : Job} {gauges gaugesAfter : Gauges}

theorem newCall (h : job.Sound id) :
    job.Moves id { job with calls := job.calls ++ [.reading] } gauges gauges := by
  have howes : (job.calls ++ [CancelPhase.reading]).countP CancelPhase.owes =
      job.calls.countP CancelPhase.owes := by
    rw [List.countP_append]
    rfl
  have hleaves : (job.calls ++ [CancelPhase.reading]).countP CancelPhase.leavesQueue =
      job.calls.countP CancelPhase.leavesQueue := by
    rw [List.countP_append]
    rfl
  refine ⟨{ h with calls := ?_, counted := ?_ }, ?_, rfl, fun _ => rfl⟩
  · intro call hcall
    rcases List.mem_append.mp hcall with hcall | hcall
    · exact h.calls call hcall
    · cases List.mem_singleton.mp hcall
      trivial
  · intro state
    rw [howes]
    exact h.counted state
  · show _ = _ + (_ + ((job.calls ++ [CancelPhase.reading]).countP CancelPhase.leavesQueue : ℤ))
    rw [hleaves]
    rfl

/-- A job that is queued belongs to this process. -/
theorem own_of_queued (h : job.Sound id) (hqueued : job.record.state = .queued) :
    job.ofProcess = true := by
  cases htask : job.task with
  | none => exact absurd (h.idle htask) (by rw [hqueued]; decide)
  | some phase => exact (h.fits phase htask).2

/-- The rule for a step of a call: it cancels a queued job or leaves the state alone. -/
theorem callMoves (h : job.Sound id) {call : ℕ} {old : CancelPhase}
    (hcall : job.calls[call]? = some old) (record : JobRecord) (new : CancelPhase)
    (counted : List JobState) {cancellation : Option Bool}
    (hversion : record.version = job.record.version) (hid : record.id = job.record.id)
    (hstate : record.state = job.record.state ∨
      job.record.state = .queued ∧ record.state = .cancelled)
    (hfits : new.Fits record.state)
    (hcounted : ∀ state, counted.count state + (if state = .cancelled then new.owes.toNat else 0) +
      (if job.ofProcess = true ∧ state.Terminal ∧ job.record.state = state then 1 else 0) =
        job.counted.count state + (if state = .cancelled then old.owes.toNat else 0) +
      (if job.ofProcess = true ∧ state.Terminal ∧ record.state = state then 1 else 0))
    (hqueued : (gaugesAfter.queued : ℤ) + one (job.record.state = .queued) +
      old.leavesQueue.toNat = gauges.queued + one (record.state = .queued) + new.leavesQueue.toNat)
    (hrunning : gaugesAfter.running = gauges.running) :
    job.Moves id (JobRuntime.withCall { job with record, cancellation, counted } call new) gauges
      gaugesAfter := by
  have hcancelled : job.record.state = .cancelled → record.state = .cancelled := by
    intro hcancelled
    rcases hstate with hsame | ⟨-, hnow⟩
    · rw [hsame, hcancelled]
    · exact hnow
  have hmoves : record.state = job.record.state ∨
      ¬job.record.state.Terminal ∧ record.state ≠ .queued := by
    refine hstate.imp_right fun h => ?_
    rw [h.1, h.2]
    decide
  have howesCount : (job.calls.set call new).countP CancelPhase.owes + _ = _ :=
    countP_set CancelPhase.owes hcall
  have hleavesCount : (job.calls.set call new).countP CancelPhase.leavesQueue + _ = _ :=
    countP_set CancelPhase.leavesQueue hcall
  refine ⟨⟨hversion.trans h.version, hid.trans h.identity, h.positive, ?_, ?_, ?_, ?_, ?_, ?_⟩,
    ?_, ?_, ?_⟩
  · intro phase htask
    obtain ⟨hfits, hown⟩ := h.fits phase htask
    refine ⟨?_, hown⟩
    rcases hstate with hsame | ⟨hwas, hnow⟩
    · exact hsame ▸ hfits
    · rw [hwas] at hfits
      exact hnow ▸ hfits.cancel
  · intro htask
    have hidle := h.idle htask
    rcases hstate with hsame | ⟨hwas, -⟩
    · exact hsame ▸ hidle
    · exact absurd hidle (by rw [hwas]; decide)
  · intro other hother
    rcases List.mem_or_eq_of_mem_set hother with hother | rfl
    · exact (h.calls other hother).mono hmoves
    · exact hfits
  · intro state
    have hbefore := h.counted state
    have hafter := hcounted state
    show counted.count state + (if job.task.bind JobPhase.owes = some state then 1 else 0) +
      (if state = .cancelled then (job.calls.set call new).countP CancelPhase.owes else 0) =
        if job.ofProcess = true ∧ state.Terminal ∧ record.state = state then 1 else 0
    by_cases hsame : state = .cancelled
    · rw [if_pos hsame] at hbefore hafter ⊢
      rw [if_pos hsame] at hafter
      omega
    · rw [if_neg hsame] at hbefore hafter ⊢
      rw [if_neg hsame] at hafter
      omega
  · intro hran
    rcases hstate with hsame | ⟨hwas, -⟩
    · exact hsame ▸ h.ran hran
    · have hbefore := h.ran hran
      rw [hwas] at hbefore
      simp at hbefore
  · intro hreturned
    rcases Bool.or_eq_true_iff.mp hreturned with hreturned | hreturned
    · exact hcancelled (h.returned hreturned)
    · exact hfits.returned hreturned
  · show (gaugesAfter.queued : ℤ) + (one (job.record.state = .queued) +
        job.task.elim 0 JobPhase.queueDebt + job.calls.countP CancelPhase.leavesQueue) =
      gauges.queued + (one (record.state = .queued) + job.task.elim 0 JobPhase.queueDebt +
        (job.calls.set call new).countP CancelPhase.leavesQueue)
    omega
  · have hstateRunning : one (job.record.state = .running) = one (record.state = .running) := by
      rcases hstate with hsame | ⟨hwas, hnow⟩
      · rw [hsame]
      · rw [hwas, hnow]
        rfl
    show (gaugesAfter.running : ℤ) + (one (job.record.state = .running) + _) =
      gauges.running + (one (record.state = .running) + _)
    rw [hrunning, hstateRunning]
    rfl
  · intro hterminal
    rcases hstate with hsame | ⟨hwas, -⟩
    · exact hsame
    · exact absurd hterminal (by rw [hwas]; decide)

theorem callGoto (h : job.Sound id) {call : ℕ} {old : CancelPhase}
    (hcall : job.calls[call]? = some old) (new : CancelPhase) {cancellation : Option Bool}
    (howes : new.owes = old.owes) (hfits : new.Fits job.record.state)
    (hqueued : (gaugesAfter.queued : ℤ) + old.leavesQueue.toNat =
      gauges.queued + new.leavesQueue.toNat) (hrunning : gaugesAfter.running = gauges.running) :
    job.Moves id (JobRuntime.withCall { job with cancellation } call new) gauges gaugesAfter := by
  refine h.callMoves hcall job.record new job.counted rfl rfl (.inl rfl) hfits
    (fun state => by rw [howes]) ?_ hrunning
  omega

theorem advanceCancel (h : job.Sound id) {call : ℕ} {phase : CancelPhase}
    (hcall : job.calls[call]? = some phase)
    (hwrites : phase.writes = true → job.record.state ≠ .cancelled)
    (hleaves : phase.leavesQueue = true → gauges.queued ≠ 0) :
    job.Moves id
      (JobRuntime.withCall (job.advanceCancel id now gauges phase).1 call
        (job.advanceCancel id now gauges phase).2.1) gauges
      (job.advanceCancel id now gauges phase).2.2 := by
  have hfits : phase.Fits job.record.state := h.calls phase (List.mem_of_getElem? hcall)
  cases phase with
  | reading =>
    unfold Job.advanceCancel
    dsimp only
    rw [h.get]
    unfold Job.requestCancel
    dsimp only
    split
    · exact h.callGoto hcall (.answered (.ok job.record)) rfl (fun h => h) rfl rfl
    · split
      · exact h.callGoto hcall (.answered (.ok job.record)) rfl (fun h => h) rfl rfl
      · refine h.callGoto hcall (.requesting (job.record.state = .queued)) rfl ?_ rfl rfl
        by_cases hqueued : job.record.state = .queued
        · rw [decide_eq_true hqueued]
          trivial
        · rw [decide_eq_false hqueued]
          exact hqueued
  | requesting wasQueued =>
    refine h.callGoto hcall (.updating wasQueued) rfl ?_ rfl rfl
    cases wasQueued <;> exact hfits
  | updating wasQueued =>
    have hlive := hwrites rfl
    unfold Job.advanceCancel
    dsimp only
    rw [h.update]
    by_cases hqueued : job.record.state = .queued
    · have hwas : wasQueued = true := by
        cases wasQueued with
        | false => exact absurd hqueued hfits
        | true => rfl
      have hstate : job.record.cancel.state = .cancelled := by
        rw [JobRecord.cancel, hqueued]
      have hversion : job.record.cancel.version = job.record.version := by
        rw [JobRecord.cancel, hqueued]
        rfl
      have hid : job.record.cancel.id = job.record.id := by
        rw [JobRecord.cancel, hqueued]
        rfl
      dsimp only
      rw [if_pos ⟨hwas, hstate⟩]
      refine h.callMoves hcall _ (.uncounting _) job.counted hversion hid (.inr ⟨hqueued, hstate⟩)
        hstate (fun state => ?_) ?_ rfl
      · simp only [h.own_of_queued hqueued, true_and, hqueued, hstate]
        cases state <;> simp [CancelPhase.owes, JobState.Terminal]
      · simp [hqueued, hstate, CancelPhase.leavesQueue, one]
    · have hcancel : job.record.cancel.version = job.record.version ∧
          job.record.cancel.id = job.record.id ∧
            job.record.cancel.state = job.record.state := by
        unfold JobRecord.cancel
        split
        · exact absurd ‹_› hqueued
        · exact ⟨rfl, rfl, rfl⟩
        · exact ⟨rfl, rfl, rfl⟩
        · exact ⟨rfl, rfl, rfl⟩
        · exact ⟨rfl, rfl, rfl⟩
      obtain ⟨hversion, hid, hstate⟩ := hcancel
      dsimp only
      rw [if_neg fun h => hlive (hstate ▸ h.2)]
      refine h.callMoves hcall _ (.answered (.ok _)) job.counted hversion hid (.inl hstate)
        (fun h => h) (fun state => ?_) ?_ rfl
      · show _ = _ + (if job.ofProcess = true ∧ state.Terminal ∧ job.record.cancel.state = state
          then 1 else 0)
        rw [hstate]
        rfl
      · show _ = _ + one (job.record.cancel.state = .queued) + _
        rw [hstate]
        rfl
  | uncounting record =>
    have hpos := hleaves rfl
    refine h.callGoto hcall (.counting record) rfl hfits ?_ rfl
    show ((gauges.queued - 1 : ℕ) : ℤ) + 1 = gauges.queued + 0
    omega
  | counting record =>
    refine h.callMoves hcall job.record (.answered (.ok record)) (job.counted ++ [.cancelled]) rfl
      rfl (.inl rfl) (fun _ => hfits) (fun state => ?_) rfl rfl
    rw [List.count_append, List.count_singleton]
    by_cases hsame : JobState.cancelled = state
    · subst hsame
      simp [CancelPhase.owes]
    · simp [hsame, Ne.symm hsame]
  | answered result => exact h.callGoto hcall (.answered result) rfl hfits rfl rfl

end Job.Sound

/-! ### Steps of the service -/

namespace JobRuntime

/-- No step writes the record of a job that was cancelled, and none takes a job out of
the queue while no job is counted in it. -/
def Undisturbed (runtime : JobRuntime) : JobEvent → Prop
  | .advance _ id => ∀ job ∈ runtime.jobs[id]?, ∀ phase ∈ job.task,
      (phase.writes = true → job.record.state ≠ .cancelled) ∧
        (phase.leavesQueue = true → runtime.gauges.queued ≠ 0)
  | .advanceCancel _ id call => ∀ job ∈ runtime.jobs[id]?, ∀ phase ∈ job.calls[call]?,
      (phase.writes = true → job.record.state ≠ .cancelled) ∧
        (phase.leavesQueue = true → runtime.gauges.queued ≠ 0)
  | _ => True

structure Sound (runtime : JobRuntime) : Prop where
  jobs : ∀ (id : ℕ) (job : Job), runtime.jobs[id]? = some job → job.Sound id
  queued : (runtime.gauges.queued : ℤ) = total Job.queueShare runtime.jobs
  running : (runtime.gauges.running : ℤ) = total Job.runningShare runtime.jobs
  increasing : runtime.submitted.Pairwise (· < ·)
  given : ∀ id, id ∈ runtime.submitted ↔ id ∈ runtime.jobs

/-- No job leaves a state in which it has ended. -/
def KeepsEnded (runtime after : JobRuntime) : Prop :=
  ∀ (id : ℕ) (job : Job), runtime.jobs[id]? = some job → job.record.state.Terminal →
    ∃ later, after.jobs[id]? = some later ∧ later.record.state = job.record.state

variable {runtime : JobRuntime} {now id : ℕ}

theorem keepsEnded_refl : KeepsEnded runtime runtime := fun _ job hjob _ => ⟨job, hjob, rfl⟩

theorem Sound.onJob (h : runtime.Sound) {change : Job → Job × Gauges}
    (hmoves : ∀ job, runtime.jobs[id]? = some job →
      job.Moves id (change job).1 runtime.gauges (change job).2) :
    (runtime.onJob id change).Sound ∧ KeepsEnded runtime (runtime.onJob id change) := by
  unfold JobRuntime.onJob
  cases hjob : runtime.jobs[id]? with
  | none => exact ⟨h, keepsEnded_refl⟩
  | some job =>
    have hmove := hmoves job hjob
    have hlookup (other : ℕ) : (runtime.jobs.insert id (change job).1)[other]? =
        if id = other then some (change job).1 else runtime.jobs[other]? := by
      simp only [Std.ExtTreeMap.getElem?_insert, compare_eq_iff_eq]
    refine ⟨⟨fun other after hafter => ?_, ?_, ?_, h.increasing, fun other => ?_⟩,
      fun other before hbefore hended => ?_⟩
    · have hfound := (hlookup other).symm.trans hafter
      by_cases hsame : id = other
      · rw [if_pos hsame] at hfound
        cases hfound
        exact hsame ▸ hmove.sound
      · rw [if_neg hsame] at hfound
        exact h.jobs other after hfound
    · have hbefore := h.queued
      have hmoved := hmove.queued
      have htotal : total Job.queueShare (runtime.jobs.insert id (change job).1) = _ :=
        total_insert hjob
      show ((change job).2.queued : ℤ) = total Job.queueShare (runtime.jobs.insert id (change job).1)
      omega
    · have hbefore := h.running
      have hmoved := hmove.running
      have htotal : total Job.runningShare (runtime.jobs.insert id (change job).1) = _ :=
        total_insert hjob
      show ((change job).2.running : ℤ) =
        total Job.runningShare (runtime.jobs.insert id (change job).1)
      omega
    · show other ∈ runtime.submitted ↔ other ∈ runtime.jobs.insert id (change job).1
      rw [h.given, Std.ExtTreeMap.mem_insert, compare_eq_iff_eq]
      constructor
      · exact .inr
      · rintro (rfl | hmem)
        · exact Std.ExtTreeMap.mem_iff_isSome_getElem?.mpr (Option.isSome_of_eq_some hjob)
        · exact hmem
    · show ∃ later, (runtime.jobs.insert id (change job).1)[other]? = some later ∧ _
      rw [hlookup]
      by_cases hsame : id = other
      · subst hsame
        cases hjob.symm.trans hbefore
        exact ⟨_, if_pos rfl, hmove.kept hended⟩
      · exact ⟨before, (if_neg hsame).trans hbefore, rfl⟩

/-- Every id that was given out is smaller than the next one. -/
theorem lt_of_nextId {jobs : Std.ExtTreeMap ℕ Job compare} {next : ℕ}
    (h : nextId jobs = .ok next) (hid : id ∈ jobs) : id < next := by
  have hmax (keys : List ℕ) (start : ℕ) : start ≤ keys.foldl max start ∧
      ∀ key ∈ keys, key ≤ keys.foldl max start := by
    induction keys generalizing start with
    | nil => exact ⟨le_rfl, fun key hkey => by cases hkey⟩
    | cons first rest ih =>
      obtain ⟨hstart, hrest⟩ := ih (max start first)
      refine ⟨(le_max_left start first).trans hstart, fun key hkey => ?_⟩
      rcases List.mem_cons.mp hkey with rfl | hkey
      · exact (le_max_right start key).trans hstart
      · exact hrest key hkey
  have hle := (hmax jobs.keys 0).2 id (Std.ExtTreeMap.mem_keys.mpr hid)
  unfold nextId at h
  dsimp only at h
  split at h
  · cases h
    omega
  · cases h

theorem sound_submitted (hid : id ≠ 0) (kind : JobKind) : (Job.submitted id now kind).Sound id where
  version := rfl
  identity := rfl
  positive := hid
  fits := by
    rintro phase ⟨⟩
    exact ⟨.inl rfl, rfl⟩
  idle := by rintro ⟨⟩
  calls := fun call hcall => by cases hcall
  counted := fun state => by cases state <;> rfl
  ran := fun h => by cases h
  returned := fun h => by cases h

theorem Sound.submit (h : runtime.Sound) {ready : Bool} {kind : JobKind} {after : JobRuntime}
    {record : JobRecord} (hsubmit : runtime.submit now ready kind = .ok (after, record)) :
    after.Sound ∧ KeepsEnded runtime after := by
  unfold JobRuntime.submit at hsubmit
  split at hsubmit
  · obtain ⟨next, hnext, hsubmit⟩ := except_bind_ok.mp hsubmit
    obtain ⟨id, hid, hsubmit⟩ := except_bind_ok.mp hsubmit
    cases hsubmit
    unfold newJobId at hid
    split at hid
    · cases hid
    rename_i hpositive
    cases hid
    have hfresh (other : ℕ) (hmem : other ∈ runtime.jobs) : other < next := lt_of_nextId hnext hmem
    have hnone : runtime.jobs[next]? = none := by
      cases hjob : runtime.jobs[next]? with
      | none => rfl
      | some job =>
        exact absurd (hfresh next (Std.ExtTreeMap.mem_iff_isSome_getElem?.mpr
          (Option.isSome_of_eq_some hjob))) (Nat.lt_irrefl next)
    have hlookup (other : ℕ) : (runtime.jobs.insert next (.submitted next now kind))[other]? =
        if next = other then some (.submitted next now kind) else runtime.jobs[other]? := by
      simp only [Std.ExtTreeMap.getElem?_insert, compare_eq_iff_eq]
    refine ⟨⟨fun other job hjob => ?_, ?_, ?_, ?_, fun other => ?_⟩, fun other job hjob _ => ?_⟩
    · have hfound := (hlookup other).symm.trans hjob
      by_cases hsame : next = other
      · rw [if_pos hsame] at hfound
        cases hfound
        exact hsame ▸ sound_submitted hpositive kind
      · rw [if_neg hsame] at hfound
        exact h.jobs other job hfound
    · show (runtime.gauges.queued : ℤ) = total Job.queueShare (runtime.jobs.insert next _)
      rw [total_insert_new hnone, h.queued]
      exact (add_zero _).symm
    · show (runtime.gauges.running : ℤ) = total Job.runningShare (runtime.jobs.insert next _)
      rw [total_insert_new hnone, h.running]
      exact (add_zero _).symm
    · refine List.pairwise_append.mpr ⟨h.increasing, List.pairwise_singleton .., ?_⟩
      intro id hid other hother
      cases List.mem_singleton.mp hother
      exact hfresh id ((h.given id).mp hid)
    · show other ∈ runtime.submitted ++ [next] ↔ other ∈ runtime.jobs.insert next _
      rw [List.mem_append, List.mem_singleton, h.given, Std.ExtTreeMap.mem_insert, compare_eq_iff_eq,
        or_comm, eq_comm]
    · have hne : next ≠ other := by
        rintro rfl
        cases hnone.symm.trans hjob
      exact ⟨job, (hlookup other).trans ((if_neg hne).trans hjob), rfl⟩
  · cases hsubmit

/-! A restart. -/

/-- A job that is recovered. -/
def recovered (now : ℕ) (job : Job) : Job :=
  let interrupted := job.record.state = .queued ∨ job.record.state = .running
  { job with
    record := if interrupted then job.record.interrupt now else job.record
    cancellation := none
    task := none
    calls := []
    counted := if interrupted then [.failed] else []
    ofProcess := interrupted }

theorem recoverJob_ok {job : Job} (h : job.Sound id) :
    recoverJob now job = .ok (recovered now job) := by
  unfold recoverJob
  rw [h.validate]
  rfl

theorem recovered_kept (now : ℕ) {job : Job} (hended : job.record.state.Terminal) :
    (recovered now job).record = job.record ∧ (recovered now job).counted = [] ∧
      (recovered now job).ofProcess = false := by
  have hnot : ¬(job.record.state = .queued ∨ job.record.state = .running) := by
    rcases hended with hstate | hstate | hstate <;> rw [hstate] <;> decide
  exact ⟨if_neg hnot, if_neg hnot, decide_eq_false hnot⟩

theorem recovered_interrupted (now : ℕ) {job : Job} (hlive : ¬job.record.state.Terminal) :
    (recovered now job).record = job.record.interrupt now ∧
      (recovered now job).counted = [.failed] ∧ (recovered now job).ofProcess = true := by
  have hinterrupted : job.record.state = .queued ∨ job.record.state = .running := by
    cases hstate : job.record.state with
    | queued => exact .inl rfl
    | running => exact .inr rfl
    | _ => exact absurd (by rw [hstate]; decide) hlive
  exact ⟨if_pos hinterrupted, if_pos hinterrupted, decide_eq_true hinterrupted⟩

theorem sound_recovered (now : ℕ) {job : Job} (h : job.Sound id) :
    (recovered now job).Sound id := by
  by_cases hended : job.record.state.Terminal
  · obtain ⟨hrecord, hcounted, hown⟩ := recovered_kept now hended
    refine ⟨hrecord ▸ h.version, hrecord ▸ h.identity, h.positive, ?_, fun _ => hrecord ▸ hended, ?_,
      fun state => ?_, fun hran => hrecord ▸ h.ran hran,
      fun hreturned => hrecord ▸ h.returned hreturned⟩
    · rintro phase ⟨⟩
    · rintro call ⟨⟩
    rw [hcounted, hown]
    show 0 + 0 + (if state = .cancelled then 0 else 0) = _
    simp
  · obtain ⟨hrecord, hcounted, hown⟩ := recovered_interrupted now hended
    have hstate : (recovered now job).record.state = .failed := by rw [hrecord]; rfl
    refine ⟨?_, ?_, h.positive, ?_, fun _ => .inr (.inl hstate), ?_, fun state => ?_,
      fun _ => .inr (.inr hstate), fun hreturned => ?_⟩
    · rw [hrecord]
      exact h.version
    · rw [hrecord]
      exact h.identity
    · rintro phase ⟨⟩
    · rintro call ⟨⟩
    · rw [hcounted, hown, hstate]
      cases state <;> rfl
    · exact absurd (.inr (.inr (h.returned hreturned))) hended

theorem recovered_shares {job : Job} (h : job.Sound id) :
    (recovered now job).queueShare = 0 ∧ (recovered now job).runningShare = 0 := by
  have hended := (sound_recovered now h).idle rfl
  unfold Job.queueShare Job.runningShare one
  rcases hended with hstate | hstate | hstate <;> rw [hstate] <;> exact ⟨rfl, rfl⟩

/-- Recovering sound jobs succeeds and replaces each of them. -/
theorem recoverInterrupted_ok (now : ℕ) {jobs : Std.ExtTreeMap ℕ Job compare}
    (h : ∀ (id : ℕ) (job : Job), jobs[id]? = some job → job.Sound id) :
    ∃ after interrupted, recoverInterrupted now jobs = .ok (after, interrupted) ∧
      ∀ id : ℕ, after[id]? = (jobs[id]?).map (recovered now) := by
  -- The entries have different keys, so that each is inserted once.
  have hfold (entries : List (ℕ × Job)) (start : Std.ExtTreeMap ℕ Job compare × ℕ)
      (hsound : ∀ entry ∈ entries, entry.2.Sound entry.1)
      (hdistinct : entries.Pairwise fun first second => first.1 ≠ second.1) :
      ∃ after interrupted, entries.foldlM (fun (found : Std.ExtTreeMap ℕ Job compare × ℕ) entry => do
          let job ← recoverJob now entry.2
          pure (found.1.insert entry.1 job, found.2 + if job.ofProcess then 1 else 0)) start =
            Except.ok (ε := JobServiceError) (after, interrupted) ∧
        (∀ entry ∈ entries, after[entry.1]? = some (recovered now entry.2)) ∧
        ∀ id : ℕ, (∀ entry ∈ entries, entry.1 ≠ id) → after[id]? = start.1[id]? := by
    induction entries generalizing start with
    | nil => exact ⟨start.1, start.2, rfl, fun _ h => (by cases h), fun _ _ => rfl⟩
    | cons entry rest ih =>
      obtain ⟨hne, hrest⟩ := List.pairwise_cons.mp hdistinct
      obtain ⟨after, interrupted, hok, hin, hout⟩ := ih
        (start.1.insert entry.1 (recovered now entry.2),
          start.2 + if (recovered now entry.2).ofProcess then 1 else 0)
        (fun other hother => hsound other (List.mem_cons_of_mem _ hother)) hrest
      refine ⟨after, interrupted, ?_, ?_, ?_⟩
      · rw [List.foldlM_cons, recoverJob_ok (hsound entry List.mem_cons_self)]
        exact hok
      · intro other hother
        rcases List.mem_cons.mp hother with rfl | hother
        · rw [hout other.1 fun later hlater => (hne later hlater).symm]
          exact Std.ExtTreeMap.getElem?_insert_self
        · exact hin other hother
      · intro id hid
        rw [hout id fun later hlater => hid later (List.mem_cons_of_mem _ hlater),
          Std.ExtTreeMap.getElem?_insert, if_neg]
        exact fun hsame => hid entry List.mem_cons_self (compare_eq_iff_eq.mp hsame)
  have hentry {id : ℕ} {job : Job} : (id, job) ∈ jobs.toList ↔ jobs[id]? = some job :=
    Std.ExtTreeMap.mem_toList_iff_getElem?_eq_some
  obtain ⟨after, interrupted, hok, hin, hout⟩ := hfold jobs.toList (∅, 0)
    (fun entry hmem => h entry.1 entry.2 (hentry.mp hmem))
    (Std.ExtTreeMap.distinct_keys_toList.imp fun hne hsame => hne (compare_eq_iff_eq.mpr hsame))
  refine ⟨after, interrupted, hok, fun id => ?_⟩
  cases hjob : jobs[id]? with
  | some job => exact hin (id, job) (hentry.mpr hjob)
  | none =>
    rw [hout id ?_]
    · rfl
    · rintro ⟨other, job⟩ hmem rfl
      cases hjob.symm.trans (hentry.mp hmem)

theorem Sound.restart (h : runtime.Sound) :
    (runtime.step (.restart now)).Sound ∧ KeepsEnded runtime (runtime.step (.restart now)) := by
  obtain ⟨after, interrupted, hok, hafter⟩ := recoverInterrupted_ok now h.jobs
  unfold JobRuntime.step
  dsimp only
  rw [hok]
  have hsound (id : ℕ) (job : Job) (hjob : after[id]? = some job) :
      ∃ before, runtime.jobs[id]? = some before ∧ recovered now before = job :=
    Option.map_eq_some_iff.mp ((hafter id).symm.trans hjob)
  have htotal (weight : Job → ℤ) (hzero : ∀ (id : ℕ) (job : Job), job.Sound id →
      weight (recovered now job) = 0) : total weight after = 0 := by
    have hcongr : total weight after = total (fun _ => 0) after := by
      refine total_congr fun id job hjob => ?_
      obtain ⟨before, hbefore, rfl⟩ := hsound id job hjob
      exact hzero id before (h.jobs id before hbefore)
    rw [hcongr]
    simp [total]
  refine ⟨⟨fun id job hjob => ?_, ?_, ?_, h.increasing, fun id => ?_⟩, fun id job hjob hended => ?_⟩
  · obtain ⟨before, hbefore, rfl⟩ := hsound id job hjob
    exact sound_recovered now (h.jobs id before hbefore)
  · exact (htotal Job.queueShare fun id job hjob => (recovered_shares hjob).1).symm
  · exact (htotal Job.runningShare fun id job hjob => (recovered_shares hjob).2).symm
  · show id ∈ runtime.submitted ↔ id ∈ after
    rw [h.given, Std.ExtTreeMap.mem_iff_isSome_getElem?, Std.ExtTreeMap.mem_iff_isSome_getElem?,
      hafter, Option.isSome_map]
  · refine ⟨recovered now job, ?_, ?_⟩
    · show after[id]? = _
      rw [hafter, hjob]
      rfl
    · rw [(recovered_kept now hended).1]

theorem Sound.step (h : runtime.Sound) {event : JobEvent}
    (hundisturbed : runtime.Undisturbed event) :
    (runtime.step event).Sound ∧ KeepsEnded runtime (runtime.step event) := by
  cases event with
  | submit now ready kind =>
    unfold JobRuntime.step
    dsimp only
    cases hsubmit : runtime.submit now ready kind with
    | error error => exact ⟨h, keepsEnded_refl⟩
    | ok result => exact h.submit hsubmit
  | advance now id =>
    refine h.onJob fun job hjob => ?_
    have hsound := h.jobs id job hjob
    cases htask : job.task with
    | none => exact ⟨hsound, rfl, rfl, fun _ => rfl⟩
    | some phase =>
      obtain ⟨hwrites, hleaves⟩ := hundisturbed job hjob phase htask
      refine hsound.advance htask hwrites hleaves ?_
      rw [h.running]
      exact le_total (fun id job hjob => (h.jobs id job hjob).runningShare_nonneg) hjob
  | admitTask id admission => exact h.onJob fun job hjob => (h.jobs id job hjob).admitTask admission
  | finishBody id outcome => exact h.onJob fun job hjob => (h.jobs id job hjob).finishBody outcome
  | cancel id => exact h.onJob fun job hjob => (h.jobs id job hjob).newCall
  | advanceCancel now id call =>
    refine h.onJob fun job hjob => ?_
    have hsound := h.jobs id job hjob
    cases hcall : job.calls[call]? with
    | none => exact ⟨hsound, rfl, rfl, fun _ => rfl⟩
    | some phase =>
      obtain ⟨hwrites, hleaves⟩ := hundisturbed job hjob phase hcall
      exact hsound.advanceCancel hcall hwrites hleaves
  | restart now => exact h.restart

theorem sound_opened : opened.Sound where
  jobs := fun id job hjob => by simp [opened] at hjob
  queued := rfl
  running := rfl
  increasing := List.Pairwise.nil
  given := fun id => iff_of_false List.not_mem_nil Std.ExtTreeMap.not_mem_empty

/-! ### The contract -/

/-- Between its steps a task waits or runs its body, and no call is under way. -/
def Quiescent (runtime : JobRuntime) : Prop :=
  ∀ (id : ℕ) (job : Job), runtime.jobs[id]? = some job →
    (job.task = none ∨ job.task = some .waiting ∨ job.task = some .running ∨
      job.task = some .done) ∧ ∀ call ∈ job.calls, ∃ result, call = .answered result

/-- What the jobs are relied on for, where only allowed events follow. -/
structure Contract (allowed : JobRuntime → JobEvent → Prop) (runtime : JobRuntime) : Prop where
  ids : runtime.submitted.Pairwise (· < ·)
  kept : ∀ event, allowed runtime event → KeepsEnded runtime (runtime.step event)
  cancelled : ∀ (id : ℕ) (job : Job), runtime.jobs[id]? = some job →
    job.returnedCancelled = true → job.ran = false
  gauges : runtime.Quiescent →
    runtime.gauges.queued = number (fun job => job.record.state = .queued) runtime.jobs ∧
      runtime.gauges.running = number (fun job => job.record.state = .running) runtime.jobs
  counted : runtime.Quiescent → ∀ (id : ℕ) (job : Job), runtime.jobs[id]? = some job →
    ∀ state, job.counted.count state =
      if job.ofProcess = true ∧ state.Terminal ∧ job.record.state = state then 1 else 0

theorem Quiescent.shares (h : runtime.Quiescent) {job : Job} (hjob : runtime.jobs[id]? = some job) :
    job.queueShare = one (job.record.state = .queued) ∧
      job.runningShare = one (job.record.state = .running) ∧
      job.task.bind JobPhase.owes = none ∧ job.calls.countP CancelPhase.owes = 0 := by
  obtain ⟨htask, hcalls⟩ := h id job hjob
  have hleaves : job.calls.countP CancelPhase.leavesQueue = 0 := by
    refine List.countP_eq_zero.mpr fun call hcall => ?_
    obtain ⟨result, rfl⟩ := hcalls call hcall
    exact Bool.false_ne_true
  have howes : job.calls.countP CancelPhase.owes = 0 := by
    refine List.countP_eq_zero.mpr fun call hcall => ?_
    obtain ⟨result, rfl⟩ := hcalls call hcall
    exact Bool.false_ne_true
  unfold Job.queueShare Job.runningShare
  rw [hleaves, howes]
  rcases htask with htask | htask | htask | htask <;> rw [htask] <;>
    exact ⟨by simp [JobPhase.queueDebt], by simp [JobPhase.runningDebt], rfl, rfl⟩

theorem Sound.contract (h : runtime.Sound) : runtime.Contract Undisturbed where
  ids := h.increasing
  kept := fun event hevent => (h.step hevent).2
  cancelled := by
    intro id job hjob hreturned
    have hsound := h.jobs id job hjob
    cases hran : job.ran with
    | false => rfl
    | true =>
      have hstate := hsound.ran hran
      rw [hsound.returned hreturned] at hstate
      simp at hstate
  gauges := by
    intro hquiescent
    have hnumber (state : JobState) : total (fun job : Job => one (job.record.state = state))
        runtime.jobs = number (fun job => job.record.state = state) runtime.jobs := by
      rw [← total_kind]
      exact total_congr fun _ job _ => by simp [one]
    constructor
    · have hqueued := h.queued
      rw [total_congr fun id job hjob => (hquiescent.shares hjob).1, hnumber] at hqueued
      exact_mod_cast hqueued
    · have hrunning := h.running
      rw [total_congr fun id job hjob => (hquiescent.shares hjob).2.1, hnumber] at hrunning
      exact_mod_cast hrunning
  counted := by
    intro hquiescent id job hjob state
    obtain ⟨-, -, htask, hcalls⟩ := hquiescent.shares hjob
    have hcounted := (h.jobs id job hjob).counted state
    rw [htask, hcalls] at hcounted
    simpa using hcounted

/-- As long as no step writes a cancelled job or finds the gauge of queued jobs empty,
the jobs are as they are relied on to be. -/
theorem jobs_contract (h : Reaches JobRuntime.step Undisturbed opened runtime) :
    runtime.Contract Undisturbed :=
  (h.invariant JobRuntime.Sound sound_opened fun _ _ hsound hevent => (hsound.step hevent).1).contract

instance (event : JobEvent) : Decidable (runtime.Undisturbed event) :=
  match event with
  | .advance _ id => inferInstanceAs (Decidable (∀ job ∈ runtime.jobs[id]?, ∀ phase ∈ job.task, _))
  | .advanceCancel _ id call =>
      inferInstanceAs (Decidable (∀ job ∈ runtime.jobs[id]?, ∀ phase ∈ job.calls[call]?, _))
  | .submit .. | .admitTask .. | .finishBody .. | .cancel _ | .restart _ => instDecidableTrue

/-- A job that runs to its end. -/
def completedRun : List JobEvent :=
  [.submit 0 true (.backupCreate "c"), .advance 0 1, .advance 0 1, .admitTask 1 .admitted,
    .advance 0 1, .advance 0 1, .advance 1 1, .advance 1 1, .advance 1 1,
    .finishBody 1 (.ok (.backup (.backupCreated "b"))), .advance 2 1, .advance 2 1, .advance 2 1,
    .advance 2 1]

theorem jobs_contract_completed : (completedRun.foldl JobRuntime.step opened).Contract Undisturbed :=
  jobs_contract (Reaches.of_allowed (by decide))

/-- A call that cancels the job after its task has looked at it for the last time. -/
def overtakenRun : List JobEvent :=
  [.submit 0 true (.backupCreate "c"), .advance 0 1, .advance 0 1, .admitTask 1 .admitted,
    .advance 0 1, .advance 0 1, .cancel 1, .advanceCancel 1 1 0, .advanceCancel 1 1 0,
    .advanceCancel 1 1 0, .advanceCancel 1 1 0, .advanceCancel 1 1 0, .advance 2 1, .advance 2 1,
    .advance 2 1]

/-- A job that was returned as cancelled can still run. -/
theorem not_jobs_contract : ¬∀ runtime,
    Reaches JobRuntime.step (fun _ _ => True) opened runtime →
      runtime.Contract fun _ _ => True := by
  intro h
  have hcontract := h _ (Reaches.foldl overtakenRun opened)
  have hran : ((overtakenRun.foldl JobRuntime.step opened).jobs[1]?).map (fun job =>
      (job.returnedCancelled, job.ran)) = some (true, true) := by decide
  obtain ⟨job, hjob, hboth⟩ := Option.map_eq_some_iff.mp hran
  obtain ⟨hreturned, hran⟩ := Prod.mk.inj hboth
  rw [hcontract.cancelled 1 job hjob hreturned] at hran
  cases hran

end JobRuntime

end Ketebe
