import Ketebe.Lib.FixedWindow
import Ketebe.RequestAuthorization

/-!
Rate limits over runs of calls. The calls of each class and project fall into windows
of their own, and the answer to a call is read off its place in its window.
-/
namespace Ketebe

open Lib.FixedWindow

structure AdmissionCall where
  projectId : String
  admission : AdmissionClass
  now : ℕ
  deriving DecidableEq, Repr

/-- A project and a class, which share a window. -/
abbrev WindowKey := String × AdmissionClass

namespace AdmissionService

def admitCall (service : AdmissionService) (call : AdmissionCall) :
    Except GovernanceError AdmissionDecision × AdmissionService :=
  service.admitAt call.projectId call.admission call.now

/-- Every call with the answer to it. -/
def answers : AdmissionService → List AdmissionCall →
    List (AdmissionCall × Except GovernanceError AdmissionDecision)
  | _, [] => []
  | service, call :: rest =>
      (call, (service.admitCall call).1) :: answers (service.admitCall call).2 rest

def after (service : AdmissionService) (calls : List AdmissionCall) : AdmissionService :=
  calls.foldl (fun service call => (service.admitCall call).2) service

def limitOf (service : AdmissionService) (key : WindowKey) : Option RateLimit :=
  service.policies[key.1]?.bind (·.limit key.2)

end AdmissionService

def AdmissionCall.concerns (key : WindowKey) (call : AdmissionCall) : Bool :=
  (call.projectId, call.admission) = key

/-- The calls of one project and class, which weigh one each. -/
def ownCalls (key : WindowKey) (calls : List AdmissionCall) : List Call :=
  (calls.filter (AdmissionCall.concerns key)).map fun call => ⟨call.now, 1⟩

namespace RateLimit

def fixed (limit : RateLimit) : Limit := ⟨limit.requests, limit.window⟩

/-- The answer to a call by its place in its window. -/
def answerAt (limit : RateLimit) (startedAt place now : ℕ) :
    Except GovernanceError AdmissionDecision :=
  let resetAfter := startedAt + limit.window - now
  if place < limit.requests then .ok ⟨some (limit.requests - (place + 1)), some resetAfter⟩
  else .error (.rateLimited resetAfter)

/-- The times of the calls of one window with the answers to them. -/
def windowAnswers (limit : RateLimit) (window : List Call) :
    List (ℕ × Except GovernanceError AdmissionDecision) :=
  window.zipIdx.map fun (call, place) =>
    (call.time, limit.answerAt (started window).startedAt place call.time)

/-- The answer to a call by the window that it finds. -/
def answerIn (limit : RateLimit) (entry : Call × Window) : Except GovernanceError AdmissionDecision :=
  let resetAfter := limit.window - (entry.1.time - entry.2.startedAt)
  if limit.requests ≤ entry.2.used then .error (.rateLimited resetAfter)
  else .ok ⟨some (limit.requests - (entry.2.used + 1)), some resetAfter⟩

end RateLimit

def WindowState.window (state : WindowState) : Window := ⟨state.startedAt, state.used⟩

namespace AdmissionService

variable {service : AdmissionService} {key : WindowKey} {limit : RateLimit} {call : AdmissionCall}

def openWindow (service : AdmissionService) (key : WindowKey) : Option Window :=
  (service.windows key).map WindowState.window

theorem window_eq (service : AdmissionService) (call : AdmissionCall) (limit : RateLimit) :
    (service.window call.projectId call.admission call.now limit).window =
      limit.fixed.windowAt (service.openWindow (call.projectId, call.admission)) call.now := by
  unfold window openWindow
  cases service.windows (call.projectId, call.admission) with
  | none =>
    rw [Option.map_none, Limit.windowAt_none]
    dsimp only
    split <;> rfl
  | some state =>
    dsimp only [Option.getD_some, Option.map_some]
    by_cases hover : limit.window ≤ call.now - state.startedAt
    · rw [if_pos hover]
      exact (Limit.windowAt_over hover).symm
    · rw [if_neg hover]
      exact (Limit.windowAt_open (Nat.not_le.mp hover)).symm

theorem policies_recordMetric (service : AdmissionService) (admission : AdmissionClass)
    (allowed : Bool) : (service.recordMetric admission allowed).policies = service.policies := by
  cases allowed <;> rfl

theorem windows_recordMetric (service : AdmissionService) (admission : AdmissionClass)
    (allowed : Bool) : (service.recordMetric admission allowed).windows = service.windows := by
  cases allowed <;> rfl

theorem openWindow_update (service : AdmissionService) (key : WindowKey) (state : WindowState) :
    (Function.update service.windows key (some state) key).map WindowState.window =
      some state.window := by
  rw [Function.update_self, Option.map_some]

/-- The answer to a call and the windows behind it. -/
theorem admitCall_of_limit (hlimit : service.limitOf (call.projectId, call.admission) = some limit) :
    (service.admitCall call).1 = limit.answerIn (⟨call.now, 1⟩, limit.fixed.windowAt
        (service.openWindow (call.projectId, call.admission)) call.now) ∧
      ∃ state : WindowState,
        state.window = limit.fixed.advance
          (service.openWindow (call.projectId, call.admission)) ⟨call.now, 1⟩ ∧
        (service.admitCall call).2.windows =
          Function.update service.windows (call.projectId, call.admission) (some state) := by
  have hfound : service.policies[call.projectId]?.bind (·.limit call.admission) = some limit := hlimit
  have hwindow := window_eq service call limit
  rw [Limit.advance, ← hwindow]
  unfold admitCall admitAt
  rw [hfound]
  dsimp only
  by_cases hfull : limit.requests ≤
      (service.window call.projectId call.admission call.now limit).used
  · have hdenied : ¬limit.fixed.fits (⟨call.now, 1⟩,
        (service.window call.projectId call.admission call.now limit).window) = true := by
      rw [Limit.fits, decide_eq_true_iff]
      dsimp only [RateLimit.fixed, WindowState.window]
      omega
    rw [if_pos hfull, Limit.take, if_neg hdenied]
    refine ⟨(if_pos hfull).symm, _, rfl, ?_⟩
    rw [windows_recordMetric]
    rfl
  · have hfits : limit.fixed.fits (⟨call.now, 1⟩,
        (service.window call.projectId call.admission call.now limit).window) = true := by
      rw [Limit.fits, decide_eq_true_iff]
      dsimp only [RateLimit.fixed, WindowState.window]
      omega
    rw [if_neg hfull, Limit.take, if_pos hfits]
    refine ⟨(if_neg hfull).symm, ⟨_, _⟩, rfl, ?_⟩
    rw [windows_recordMetric]
    rfl

theorem policies_admitCall (service : AdmissionService) (call : AdmissionCall) :
    (service.admitCall call).2.policies = service.policies := by
  unfold admitCall admitAt
  split
  · rw [policies_recordMetric]
  · dsimp only
    split
    · rw [policies_recordMetric]
      rfl
    · rw [policies_recordMetric]
      rfl

/-- A call leaves the windows of other projects and classes alone. -/
theorem windows_admitCall_of_ne (h : call.concerns key = false) :
    (service.admitCall call).2.windows key = service.windows key := by
  have hne : key ≠ (call.projectId, call.admission) := Ne.symm (of_decide_eq_false h)
  unfold admitCall admitAt
  split
  · rw [windows_recordMetric]
  · dsimp only
    split
    · rw [windows_recordMetric]
      exact Function.update_of_ne hne _ _
    · rw [windows_recordMetric]
      exact Function.update_of_ne hne _ _

/-! ### Runs of calls -/

section Runs

variable {calls : List AdmissionCall}

theorem limitOf_admitCall (service : AdmissionService) (call : AdmissionCall) (key : WindowKey) :
    (service.admitCall call).2.limitOf key = service.limitOf key := by
  rw [limitOf, policies_admitCall, limitOf]

theorem limitOf_after (service : AdmissionService) (calls : List AdmissionCall) (key : WindowKey) :
    (service.after calls).limitOf key = service.limitOf key := by
  induction calls generalizing service with
  | nil => rfl
  | cons call rest ih => exact (ih _).trans (limitOf_admitCall service call key)

theorem ownCalls_cons_of_concerns {rest : List AdmissionCall} (h : call.concerns key = true) :
    ownCalls key (call :: rest) = ⟨call.now, 1⟩ :: ownCalls key rest := by
  rw [ownCalls, List.filter_cons_of_pos h, List.map_cons, ownCalls]

theorem ownCalls_cons_of_not {rest : List AdmissionCall} (h : call.concerns key = false) :
    ownCalls key (call :: rest) = ownCalls key rest := by
  rw [ownCalls, List.filter_cons_of_neg (by rw [h]; exact Bool.false_ne_true), ownCalls]

theorem openWindow_admitCall (hlimit : service.limitOf key = some limit)
    (h : call.concerns key = true) : (service.admitCall call).2.openWindow key =
      some (limit.fixed.advance (service.openWindow key) ⟨call.now, 1⟩) := by
  obtain rfl : (call.projectId, call.admission) = key := of_decide_eq_true h
  obtain ⟨-, state, hstate, hwindows⟩ := admitCall_of_limit hlimit
  rw [openWindow, hwindows, openWindow_update, hstate]

theorem openWindow_after (hlimit : service.limitOf key = some limit) :
    (service.after calls).openWindow key =
      limit.fixed.after (service.openWindow key) (ownCalls key calls) := by
  induction calls generalizing service with
  | nil => rfl
  | cons call rest ih =>
    have hrest := ih ((limitOf_admitCall service call key).trans hlimit)
    cases hown : call.concerns key with
    | true =>
      rw [ownCalls_cons_of_concerns hown]
      rw [openWindow_admitCall hlimit hown] at hrest
      exact hrest
    | false =>
      rw [ownCalls_cons_of_not hown]
      rw [openWindow, openWindow, windows_admitCall_of_ne hown] at hrest
      exact hrest

/-- The answers to the calls of a project and class depend on no others. -/
theorem answers_own (calls : List AdmissionCall) (hlimit : service.limitOf key = some limit) :
    ((service.answers calls).filter (·.1.concerns key)).map (fun entry => (entry.1.now, entry.2)) =
      (limit.fixed.entries (service.openWindow key) (ownCalls key calls)).map
        fun entry => (entry.1.time, limit.answerIn entry) := by
  induction calls generalizing service with
  | nil => rfl
  | cons call rest ih =>
    have hrest := ih ((limitOf_admitCall service call key).trans hlimit)
    cases hown : call.concerns key with
    | true =>
      rw [openWindow_admitCall hlimit hown] at hrest
      obtain rfl : (call.projectId, call.admission) = key := of_decide_eq_true hown
      rw [answers, List.filter_cons_of_pos (by exact hown), List.map_cons, hrest,
        ownCalls_cons_of_concerns hown, Limit.entries, List.map_cons, (admitCall_of_limit hlimit).1]
    | false =>
      rw [openWindow, windows_admitCall_of_ne hown] at hrest
      rw [answers, List.filter_cons_of_neg (by rw [hown]; exact Bool.false_ne_true), hrest,
        ownCalls_cons_of_not hown]
      rfl

end Runs

end AdmissionService

/-! ### Places in windows -/

theorem RateLimit.answerIn_eq_answerAt {limit : RateLimit} {startedAt now : ℕ}
    (hstarted : startedAt ≤ now) (place weight : ℕ) :
    limit.answerIn (⟨now, weight⟩, ⟨startedAt, min limit.requests place⟩) =
      limit.answerAt startedAt place now := by
  have hreset : limit.window - (now - startedAt) = startedAt + limit.window - now := by omega
  unfold RateLimit.answerIn RateLimit.answerAt
  dsimp only
  rw [hreset]
  by_cases hplace : place < limit.requests
  · rw [if_pos hplace, if_neg (by omega), Nat.min_eq_right (Nat.le_of_lt hplace)]
  · rw [if_neg hplace, if_pos (by omega)]

section Places

variable {service : AdmissionService} {key : WindowKey} {limit : RateLimit}
variable {calls : List AdmissionCall}

theorem weight_ownCalls : ∀ call ∈ ownCalls key calls, call.weight = 1 := by
  intro call hcall
  obtain ⟨_, -, rfl⟩ := List.mem_map.mp hcall
  rfl

theorem ordered_ownCalls (hordered : calls.Pairwise (·.now ≤ ·.now)) :
    Ordered (ownCalls key calls) := List.pairwise_map.mpr (hordered.sublist List.filter_sublist)

/-- The answers to calls are those of their places in the windows of their own. -/
theorem answers_places (hlimit : service.limitOf key = some limit)
    (hfresh : service.windows key = none) (hordered : calls.Pairwise (·.now ≤ ·.now)) :
    ((service.answers calls).filter (·.1.concerns key)).map (fun entry => (entry.1.now, entry.2)) =
      (windows limit.window (ownCalls key calls)).flatMap limit.windowAnswers := by
  have hopen : service.openWindow key = none := by
    rw [AdmissionService.openWindow, hfresh, Option.map_none]
  rw [AdmissionService.answers_own _ hlimit, hopen, (Limit.run_eq _ _).1, List.map_flatMap]
  refine List.flatMap_congr fun window hwindow => ?_
  have hsublist := sublist_of_mem_windows hwindow
  have hones : ∀ call ∈ window, call.weight = 1 :=
    fun call hcall => weight_ownCalls call (hsublist.subset hcall)
  have hstarted : ∀ call ∈ window, (started window).startedAt ≤ call.time := by
    have hwithin : Ordered window := (ordered_ownCalls hordered).sublist hsublist
    intro call hcall
    cases window with
    | nil => cases hcall
    | cons first rest =>
      rcases List.mem_cons.mp hcall with rfl | hcall
      · exact Nat.le_refl _
      · exact List.rel_of_pairwise_cons hwithin hcall
  have hempty : started window = ⟨(started window).startedAt, min limit.fixed.allowance 0⟩ := by
    rw [Nat.min_zero]
    cases window <;> rfl
  rw [hempty, Limit.within_of_ones hones, List.map_map]
  refine List.map_congr_left fun place hplace => ?_
  have hmem := List.fst_mem_of_mem_zipIdx hplace
  exact congrArg (Prod.mk _) (RateLimit.answerIn_eq_answerAt (hstarted _ hmem) place.2 place.1.weight)

theorem isOk_answerIn (limit : RateLimit) {entry : Call × Window} (hweight : entry.1.weight = 1) :
    (limit.answerIn entry).isOk = limit.fixed.fits entry := by
  unfold RateLimit.answerIn Limit.fits
  rw [hweight]
  dsimp only [RateLimit.fixed]
  by_cases hfull : limit.requests ≤ entry.2.used
  · rw [if_pos hfull]
    exact (decide_eq_false (by omega)).symm
  · rw [if_neg hfull]
    exact (decide_eq_true (by omega)).symm

/-- An interval as long as a window admits twice the requests of a window at most. -/
theorem countP_admitted_le (hlimit : service.limitOf key = some limit)
    (hpositive : limit.isZero = false) (hfresh : service.windows key = none)
    (hordered : calls.Pairwise (·.now ≤ ·.now)) (start : ℕ) :
    (service.answers calls).countP (fun entry => (entry.2.isOk &&
        decide (start ≤ entry.1.now ∧ entry.1.now < start + limit.window)) &&
          entry.1.concerns key) ≤ 2 * limit.requests := by
  have hopen : service.openWindow key = none := by
    rw [AdmissionService.openWindow, hfresh, Option.map_none]
  obtain ⟨hrequests, hwindow⟩ := not_or.mp (of_decide_eq_false hpositive)
  set interval : ℕ → Bool := fun now => start ≤ now ∧ now < start + limit.window with hinterval
  set entries := limit.fixed.entries none (ownCalls key calls) with hentries
  have hone : ∀ entry ∈ entries, entry.1.weight = 1 := by
    intro entry hentry
    have hmem := List.mem_map_of_mem (f := Prod.fst) hentry
    rw [hentries, Limit.entries_fst] at hmem
    exact weight_ownCalls _ hmem
  have hcount : (service.answers calls).countP (fun entry =>
      (entry.2.isOk && interval entry.1.now) && entry.1.concerns key) =
        (limit.fixed.admitted none (ownCalls key calls)).countP fun call => interval call.time := by
    calc _ = (((service.answers calls).filter (·.1.concerns key)).map
          fun entry => (entry.1.now, entry.2)).countP fun answer =>
            answer.2.isOk && interval answer.1 := by
          rw [List.countP_map, List.countP_filter]
          rfl
      _ = entries.countP fun entry => interval entry.1.time && limit.fixed.fits entry := by
          rw [AdmissionService.answers_own _ hlimit, hopen, List.countP_map]
          refine List.countP_congr fun entry hentry => ?_
          rw [Function.comp_apply, isOk_answerIn limit (hone entry hentry), Bool.and_comm]
      _ = _ := by
          rw [Limit.admitted, List.countP_map, List.countP_filter]
          rfl
  have hadmitted : (limit.fixed.admitted none (ownCalls key calls)).countP
      (fun call => interval call.time) =
        during start limit.window (limit.fixed.admitted none (ownCalls key calls)) := by
    rw [during, total_ones, List.countP_eq_length_filter]
    intro call hcall
    exact weight_ownCalls call
      ((Limit.admitted_sublist _ _ _).subset (List.mem_of_mem_filter hcall))
  have hall : limit.fixed.AdmitsAll (limit.fixed.admitted none (ownCalls key calls)) := by
    apply Limit.admitsAll_admitted
    intro call hcall
    rw [weight_ownCalls call hcall]
    exact Nat.one_le_iff_ne_zero.mpr hrequests
  have hle := during_le start 0 (Nat.le_refl limit.window)
    (Nat.pos_of_ne_zero hwindow) ((ordered_ownCalls hordered).sublist
      (Limit.admitted_sublist _ _ _)) (fun _ _ => Nat.zero_le _) (Limit.admitsAll_iff.mp hall)
  rw [hcount, hadmitted]
  exact hle.trans (by dsimp only [RateLimit.fixed]; omega)

theorem fits_of_answer (hlimit : service.limitOf key = some limit) {call : AdmissionCall}
    (hown : call.concerns key = true) : (service.admitCall call).1.isOk =
      limit.fixed.fits (⟨call.now, 1⟩, limit.fixed.windowAt (service.openWindow key) call.now) := by
  obtain rfl : (call.projectId, call.admission) = key := of_decide_eq_true hown
  rw [(AdmissionService.admitCall_of_limit hlimit).1]
  exact isOk_answerIn limit rfl

/-- A call that is denied leaves the windows as they are. -/
theorem windows_of_denied (hlimit : service.limitOf key = some limit)
    (hpositive : limit.isZero = false) {call : AdmissionCall} (hown : call.concerns key = true)
    (hdenied : (service.admitCall call).1.isOk = false) :
    (service.admitCall call).2.windows = service.windows := by
  rw [fits_of_answer hlimit hown] at hdenied
  obtain rfl : (call.projectId, call.admission) = key := of_decide_eq_true hown
  obtain ⟨-, state, hstate, hwindows⟩ := AdmissionService.admitCall_of_limit hlimit
  obtain ⟨hrequests, -⟩ := not_or.mp (of_decide_eq_false hpositive)
  have hsame : some state.window =
      service.openWindow (call.projectId, call.admission) := by
    rw [hstate]
    exact Limit.advance_of_denied (Nat.one_le_iff_ne_zero.mpr hrequests) hdenied
  have hkept : service.windows (call.projectId, call.admission) = some state := by
    rw [AdmissionService.openWindow] at hsame
    cases hfound : service.windows (call.projectId, call.admission) with
    | none =>
      rw [hfound] at hsame
      cases hsame
    | some found =>
      rw [hfound, Option.map_some, Option.some.injEq] at hsame
      obtain ⟨startedAt, used⟩ := found
      obtain ⟨startedAt', used'⟩ := state
      cases hsame
      rfl
  rw [hwindows, ← hkept, Function.update_eq_self]

theorem retryAfter_of_denied (hlimit : service.limitOf key = some limit) {call : AdmissionCall}
    (hown : call.concerns key = true) {retryAfter : ℕ}
    (hdenied : (service.admitCall call).1 = .error (.rateLimited retryAfter)) :
    limit.window - (call.now - (limit.fixed.windowAt (service.openWindow key) call.now).startedAt) =
      retryAfter := by
  obtain rfl : (call.projectId, call.admission) = key := of_decide_eq_true hown
  rw [(AdmissionService.admitCall_of_limit hlimit).1, RateLimit.answerIn] at hdenied
  dsimp only at hdenied
  split at hdenied
  · cases hdenied
    rfl
  · cases hdenied

theorem ownCalls_append (earlier later : List AdmissionCall) :
    ownCalls key (earlier ++ later) = ownCalls key earlier ++ ownCalls key later := by
  rw [ownCalls, List.filter_append, List.map_append, ownCalls, ownCalls]

theorem ownCalls_of_others (h : ∀ call ∈ calls, call.concerns key = false) :
    ownCalls key calls = [] := by
  rw [ownCalls, List.filter_eq_nil_iff.mpr fun call hcall => by rw [h call hcall]; nofun]
  rfl

/-- A denied call succeeds exactly when it is repeated after the time it was told. -/
theorem retry_iff {earlier between : List AdmissionCall} {call next : AdmissionCall}
    (hlimit : service.limitOf key = some limit) (hpositive : limit.isZero = false)
    (hfresh : service.windows key = none)
    (hordered : (earlier ++ call :: between ++ [next]).Pairwise (·.now ≤ ·.now))
    (hown : call.concerns key = true) (hnext : next.concerns key = true)
    (hothers : ∀ other ∈ between, other.concerns key = false) {retryAfter : ℕ}
    (hdenied : ((service.after earlier).admitCall call).1 = .error (.rateLimited retryAfter)) :
    ((service.after (earlier ++ call :: between)).admitCall next).1.isOk = true ↔
      call.now + retryAfter ≤ next.now := by
  obtain ⟨hrequests, -⟩ := not_or.mp (of_decide_eq_false hpositive)
  have hweight : 1 ≤ limit.fixed.allowance := Nat.one_le_iff_ne_zero.mpr hrequests
  have hafter (calls : List AdmissionCall) :
      (service.after calls).openWindow key = limit.fixed.after none (ownCalls key calls) := by
    rw [AdmissionService.openWindow_after hlimit, AdmissionService.openWindow, hfresh,
      Option.map_none]
  have hlimitAt (calls : List AdmissionCall) : (service.after calls).limitOf key = some limit :=
    (AdmissionService.limitOf_after service calls key).trans hlimit
  set state := limit.fixed.after none (ownCalls key earlier) with hstate
  have hanswer : limit.fixed.fits (⟨call.now, 1⟩, limit.fixed.windowAt state call.now) = false := by
    rw [hstate, ← hafter, ← fits_of_answer (hlimitAt earlier) hown, hdenied]
    rfl
  have hbefore : (limit.fixed.windowAt state call.now).startedAt ≤ call.now := by
    refine Limit.startedAt_windowAt_le (Nat.le_refl _) (Limit.startedAt_after_le fun own howned => ?_)
    obtain ⟨other, hother, rfl⟩ := List.mem_map.mp howned
    rw [List.append_assoc, List.cons_append, List.pairwise_append] at hordered
    exact hordered.2.2 other (List.mem_of_mem_filter hother) call List.mem_cons_self
  have hretry := retryAfter_of_denied (hlimitAt earlier) hown hdenied
  rw [hafter, ← hstate] at hretry
  have hnextState : (service.after (earlier ++ call :: between)).openWindow key =
      some (limit.fixed.advance state ⟨call.now, 1⟩) := by
    rw [hafter, ownCalls_append, AdmissionService.ownCalls_cons_of_concerns hown,
      ownCalls_of_others hothers, Limit.after_append_singleton]
  obtain ⟨window, -, hopen, hwindow⟩ := Limit.open_of_denied hweight hanswer
  rw [fits_of_answer (hlimitAt _) hnext, hnextState,
    Limit.fits_after_denied (Nat.le_refl 1) hweight hanswer]
  dsimp only [RateLimit.fixed] at hwindow hopen hretry hbefore ⊢
  rw [hwindow] at hretry hbefore ⊢
  omega

/-- The calls of a project and class under a limit. Their answers are those of their
places in windows of their own, an interval as long as a window admits twice the
requests, and a denied call changes nothing and succeeds when it waits as it was told. -/
structure FixedWindows (service : AdmissionService) (key : WindowKey) (limit : RateLimit)
    (calls : List AdmissionCall) : Prop where
  places : ((service.answers calls).filter (·.1.concerns key)).map
      (fun entry => (entry.1.now, entry.2)) =
        (windows limit.window (ownCalls key calls)).flatMap limit.windowAnswers
  bounded (start : ℕ) : (service.answers calls).countP (fun entry => (entry.2.isOk &&
      decide (start ≤ entry.1.now ∧ entry.1.now < start + limit.window)) &&
        entry.1.concerns key) ≤ 2 * limit.requests
  retried {earlier between later : List AdmissionCall} {call next : AdmissionCall} :
    calls = earlier ++ call :: between ++ next :: later →
      call.concerns key = true → next.concerns key = true →
      (∀ other ∈ between, other.concerns key = false) → ∀ retryAfter,
      ((service.after earlier).admitCall call).1 = .error (.rateLimited retryAfter) →
      (((service.after (earlier ++ call :: between)).admitCall next).1.isOk = true ↔
        call.now + retryAfter ≤ next.now)
  kept {earlier later : List AdmissionCall} {call : AdmissionCall} :
    calls = earlier ++ call :: later → call.concerns key = true →
      ((service.after earlier).admitCall call).1.isOk = false →
      ((service.after earlier).admitCall call).2.windows = (service.after earlier).windows

end Places

theorem isZero_of_validate {policy : GovernancePolicy} {admission : AdmissionClass}
    {limit : RateLimit} (hvalid : policy.validate = .ok ())
    (hlimit : policy.limit admission = some limit) : limit.isZero = false := by
  obtain ⟨⟨hread, hwrite, hadmin⟩, -⟩ := GovernancePolicy.validate_iff.mp hvalid
  cases admission with
  | read => exact hread limit hlimit
  | write => exact hwrite limit hlimit
  | admin => exact hadmin limit hlimit

/-- Admission by a rate limit is exact, whatever is called for other projects and classes. -/
theorem admitAt_fixedWindows (service : AdmissionService) (projectId : String)
    (admission : AdmissionClass) (policy : GovernancePolicy) (limit : RateLimit)
    (hpolicy : service.policies[projectId]? = some policy) (hvalid : policy.validate = .ok ())
    (hlimit : policy.limit admission = some limit)
    (hfresh : service.windows (projectId, admission) = none) (calls : List AdmissionCall)
    (hordered : calls.Pairwise (·.now ≤ ·.now)) :
    FixedWindows service (projectId, admission) limit calls := by
  have hfound : service.limitOf (projectId, admission) = some limit := by
    rw [AdmissionService.limitOf, hpolicy]
    exact hlimit
  have hpositive := isZero_of_validate hvalid hlimit
  constructor
  case places => exact answers_places hfound hfresh hordered
  case bounded => exact countP_admitted_le hfound hpositive hfresh hordered
  case retried =>
    rintro earlier between later call next rfl hown hnext hothers retryAfter hdenied
    have hprefix : (earlier ++ call :: between ++ [next]).Pairwise (·.now ≤ ·.now) := by
      refine hordered.sublist ?_
      exact List.Sublist.append (List.Sublist.refl _) (List.singleton_sublist.mpr List.mem_cons_self)
    exact retry_iff hfound hpositive hfresh hprefix hown hnext hothers hdenied
  case kept =>
    rintro earlier later call rfl hown hdenied
    exact windows_of_denied ((AdmissionService.limitOf_after service earlier _).trans hfound)
      hpositive hown hdenied

theorem admitAt_fixedWindows_twoProjects :
    FixedWindows ⟨⟨(∅ : Std.ExtTreeMap String GovernancePolicy compare).insert "search"
        ⟨some ⟨2, 10⟩, none, none, ⟨none, none⟩⟩⟩, fun _ => none, fun _ => 0, fun _ => 0⟩
      ("search", .read) ⟨2, 10⟩
      [⟨"search", .read, 0⟩, ⟨"other", .read, 3⟩, ⟨"search", .write, 4⟩, ⟨"search", .read, 9⟩,
        ⟨"search", .read, 9⟩, ⟨"search", .read, 10⟩] :=
  admitAt_fixedWindows _ "search" .read ⟨some ⟨2, 10⟩, none, none, ⟨none, none⟩⟩ ⟨2, 10⟩
    Std.ExtTreeMap.getElem?_insert_self rfl rfl rfl _ (by decide)

end Ketebe
