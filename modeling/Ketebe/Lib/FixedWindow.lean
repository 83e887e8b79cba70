import Mathlib.Algebra.BigOperators.Group.List.Basic
import Mathlib.Algebra.GroupWithZero.Nat
import Mathlib.Algebra.Order.BigOperators.Group.List
import Mathlib.Algebra.Order.Group.Nat
import Mathlib.Data.List.Induction
import Mathlib.Data.List.TakeWhile
import Mathlib.Data.Nat.Notation

/-!
Limiters with fixed windows. The first call behind the end of a window starts the
next one, and within a window calls are admitted as long as their weights fit the
allowance. What a limiter answers is read off the windows that its calls fall into.
-/
namespace Ketebe.Lib.FixedWindow

structure Window where
  startedAt : ℕ
  used : ℕ
  deriving DecidableEq, Repr

structure Limit where
  allowance : ℕ
  length : ℕ
  deriving DecidableEq, Repr

structure Call where
  time : ℕ
  weight : ℕ
  deriving DecidableEq, Repr

/-! ### The limiter -/

namespace Limit

variable (limit : Limit)

/-- The window that a call falls into; a new one starts when the last one is over. -/
def windowAt (state : Option Window) (now : ℕ) : Window :=
  let window := state.getD ⟨now, 0⟩
  if limit.length ≤ now - window.startedAt then ⟨now, 0⟩ else window

def fits (entry : Call × Window) : Bool := entry.1.weight ≤ limit.allowance - entry.2.used

/-- The window behind one of its calls. -/
def take (window : Window) (call : Call) : Window :=
  if limit.fits (call, window) then { window with used := window.used + call.weight } else window

def advance (state : Option Window) (call : Call) : Window :=
  limit.take (limit.windowAt state call.time) call

/-- Every call with the window that it finds. -/
def entries : Option Window → List Call → List (Call × Window)
  | _, [] => []
  | state, call :: rest =>
      (call, limit.windowAt state call.time) :: entries (some (limit.advance state call)) rest

def after (state : Option Window) (calls : List Call) : Option Window :=
  calls.foldl (fun state call => some (limit.advance state call)) state

variable {limit}

theorem windowAt_none (now : ℕ) : limit.windowAt none now = ⟨now, 0⟩ := by
  unfold windowAt
  dsimp only
  split <;> rfl

theorem windowAt_over {window : Window} {now : ℕ} (h : limit.length ≤ now - window.startedAt) :
    limit.windowAt (some window) now = ⟨now, 0⟩ := if_pos h

theorem windowAt_open {window : Window} {now : ℕ} (h : now - window.startedAt < limit.length) :
    limit.windowAt (some window) now = window := if_neg (Nat.not_le.mpr h)

theorem entries_append (state : Option Window) (calls others : List Call) :
    limit.entries state (calls ++ others) =
      limit.entries state calls ++ limit.entries (limit.after state calls) others := by
  induction calls generalizing state with
  | nil => rfl
  | cons call rest ih =>
    rw [List.cons_append, entries, ih, entries, List.cons_append]
    rfl

theorem entries_singleton (state : Option Window) (call : Call) :
    limit.entries state [call] = [(call, limit.windowAt state call.time)] := rfl

theorem after_append_singleton (state : Option Window) (calls : List Call) (call : Call) :
    limit.after state (calls ++ [call]) =
      some (limit.advance (limit.after state calls) call) := by
  rw [after, List.foldl_append]
  rfl

end Limit

/-! ### Windows -/

/-- The call falls into the window that the first call started. -/
def inside (length : ℕ) (first call : Call) : Bool := call.time - first.time < length

/-- The calls, split into the windows that they fall into. -/
def windows (length : ℕ) : List Call → List (List Call)
  | [] => []
  | call :: rest =>
      (call :: rest.takeWhile (inside length call)) ::
        windows length (rest.dropWhile (inside length call))
termination_by calls => calls.length
decreasing_by
  exact Nat.lt_succ_of_le (List.length_dropWhile_le _ _)

variable {length : ℕ} {calls : List Call} {call : Call}

theorem windows_nil : windows length [] = [] := by rw [windows]

theorem windows_cons {rest : List Call} : windows length (call :: rest) =
    (call :: rest.takeWhile (inside length call)) ::
      windows length (rest.dropWhile (inside length call)) := by
  rw [windows]

theorem windows_singleton : windows length [call] = [[call]] := by
  rw [windows_cons, List.takeWhile_nil, List.dropWhile_nil, windows_nil]

theorem windows_flatten (length : ℕ) (calls : List Call) : (windows length calls).flatten = calls := by
  induction calls using windows.induct length with
  | case1 => rw [windows_nil, List.flatten_nil]
  | case2 call rest ih =>
    rw [windows_cons, List.flatten_cons, ih, List.cons_append, List.takeWhile_append_dropWhile]

theorem sublist_of_mem_windows {window : List Call} (h : window ∈ windows length calls) :
    window.Sublist calls := by
  have hsublist := List.sublist_flatten_of_mem h
  rwa [windows_flatten] at hsublist

/-- One more call falls into the last window or starts the next one. -/
theorem windows_append_singleton (hcalls : calls ≠ []) (call : Call) :
    ∃ earlier first rest, windows length calls = earlier ++ [first :: rest] ∧
      windows length (calls ++ [call]) = if length ≤ call.time - first.time
        then earlier ++ [first :: rest] ++ [[call]]
        else earlier ++ [first :: (rest ++ [call])] := by
  induction calls using windows.induct length with
  | case1 => exact absurd rfl hcalls
  | case2 first rest ih =>
    rw [List.cons_append, windows_cons, windows_cons, List.takeWhile_append, List.dropWhile_append]
    by_cases hlast : rest.dropWhile (inside length first) = []
    · have hinside := List.dropWhile_eq_nil_iff.mp hlast
      rw [List.takeWhile_eq_self_iff.mpr hinside, hlast, if_pos rfl, windows_nil]
      refine ⟨[], first, rest, rfl, ?_⟩
      by_cases hover : length ≤ call.time - first.time
      · have hnot : ¬inside length first call = true := by
          rw [inside, decide_eq_true_iff]
          omega
        rw [if_pos hover, List.takeWhile_cons_of_neg hnot, List.dropWhile_cons_of_neg hnot,
          List.append_nil, if_pos List.isEmpty_nil, windows_singleton]
        rfl
      · have hin : inside length first call = true := decide_eq_true (Nat.not_le.mp hover)
        rw [if_neg hover, List.takeWhile_cons_of_pos hin, List.dropWhile_cons_of_pos hin,
          if_pos List.isEmpty_nil, List.takeWhile_nil, List.dropWhile_nil, windows_nil]
        rfl
    · obtain ⟨earlier, next, others, hwindows, hnext⟩ := ih hlast
      have hpart : (rest.takeWhile (inside length first)).length ≠
          rest.length := by
        intro heq
        apply hlast
        have hsplit := congrArg List.length
          (@List.takeWhile_append_dropWhile _ (inside length first) rest)
        rw [List.length_append, heq] at hsplit
        exact List.length_eq_zero_iff.mp (by omega)
      have hmore : ¬(rest.dropWhile (inside length first)).isEmpty = true :=
        fun hempty => hlast (List.isEmpty_iff.mp hempty)
      rw [if_neg hpart, if_neg hmore, hwindows, hnext]
      refine ⟨_ :: earlier, next, others, rfl, ?_⟩
      split <;> rfl

/-! ### Within a window -/

def total (calls : List Call) : ℕ := (calls.map Call.weight).sum

theorem total_cons (call : Call) (rest : List Call) :
    total (call :: rest) = call.weight + total rest := by
  rw [total, List.map_cons, List.sum_cons, total]

theorem total_append (calls others : List Call) :
    total (calls ++ others) = total calls + total others := by
  rw [total, List.map_append, List.sum_append, total, total]

/-- The window that the first of the calls starts. -/
def started : List Call → Window
  | [] => ⟨0, 0⟩
  | first :: _ => ⟨first.time, 0⟩

namespace Limit

variable (limit : Limit)

/-- Every call of a window with what it finds. -/
def within : Window → List Call → List (Call × Window)
  | _, [] => []
  | window, call :: rest => (call, window) :: within (limit.take window call) rest

/-- The window that is open after the calls. -/
def openWindow (calls : List Call) : Option Window :=
  (windows limit.length calls).getLast?.map fun window => window.foldl limit.take (started window)

variable {limit} {window : Window}

theorem within_append_singleton (window : Window) (calls : List Call) (call : Call) :
    limit.within window (calls ++ [call]) =
      limit.within window calls ++ [(call, calls.foldl limit.take window)] := by
  induction calls generalizing window with
  | nil => rfl
  | cons first rest ih =>
    rw [List.cons_append, within, ih, within, List.cons_append]
    rfl

theorem take_of_fits (h : window.used + call.weight ≤ limit.allowance) :
    limit.take window call = { window with used := window.used + call.weight } :=
  if_pos (decide_eq_true (by dsimp only; omega))

theorem take_of_not_fits (h : limit.allowance < window.used + call.weight)
    (hused : window.used ≤ limit.allowance) : limit.take window call = window := by
  rw [take, if_neg]
  rw [fits, decide_eq_true_iff]
  dsimp only
  omega

/-- All calls of a window fit when their weights do so together. -/
theorem within_fits_iff (hused : window.used ≤ limit.allowance) :
    (∀ entry ∈ limit.within window calls, limit.fits entry = true) ↔
      window.used + total calls ≤ limit.allowance := by
  induction calls generalizing window with
  | nil =>
    constructor
    · intro _
      exact hused
    · intro _ _ hentry
      cases hentry
  | cons call rest ih =>
    rw [within, List.forall_mem_cons, total_cons, fits, decide_eq_true_iff]
    dsimp only
    by_cases hfits : window.used + call.weight ≤ limit.allowance
    · rw [take_of_fits hfits, ih hfits]
      dsimp only
      omega
    · omega

/-- Of calls that weigh one each, a window counts up to the allowance. -/
theorem within_of_ones (hones : ∀ call ∈ calls, call.weight = 1) (startedAt before : ℕ) :
    limit.within ⟨startedAt, min limit.allowance before⟩ calls =
      (calls.zipIdx before).map fun place => (place.1, ⟨startedAt, min limit.allowance place.2⟩) := by
  induction calls generalizing before with
  | nil => rfl
  | cons call rest ih =>
    rw [List.forall_mem_cons] at hones
    have htake : limit.take ⟨startedAt, min limit.allowance before⟩ call =
        ⟨startedAt, min limit.allowance (before + 1)⟩ := by
      by_cases hroom : before < limit.allowance
      · have hless : min limit.allowance before + call.weight ≤ limit.allowance := by omega
        rw [take_of_fits hless, hones.1, Window.mk.injEq]
        refine ⟨rfl, ?_⟩
        dsimp only
        omega
      · have hmore : limit.allowance < min limit.allowance before + call.weight := by omega
        rw [take_of_not_fits hmore (Nat.min_le_left _ _), Window.mk.injEq]
        omega
    rw [within, htake, ih hones.2, List.zipIdx_cons, List.map_cons]

theorem startedAt_foldl_take (window : Window) (calls : List Call) :
    (calls.foldl limit.take window).startedAt = window.startedAt := by
  induction calls generalizing window with
  | nil => rfl
  | cons call rest ih =>
    rw [List.foldl_cons, ih, take]
    split <;> rfl

theorem startedAt_windowAt_le {state : Option Window} {now bound : ℕ} (hnow : now ≤ bound)
    (h : ∀ window ∈ state, window.startedAt ≤ bound) :
    (limit.windowAt state now).startedAt ≤ bound := by
  cases state with
  | none =>
    rw [windowAt_none]
    exact hnow
  | some window =>
    unfold windowAt
    dsimp only [Option.getD_some]
    split
    · exact hnow
    · exact h window rfl

theorem startedAt_after_le {bound : ℕ} (h : ∀ call ∈ calls, call.time ≤ bound) :
    ∀ window ∈ limit.after none calls, window.startedAt ≤ bound := by
  induction calls using List.reverseRecOn with
  | nil =>
    intro window hwindow
    cases hwindow
  | append_singleton calls call ih =>
    intro window hwindow
    rw [after_append_singleton] at hwindow
    cases hwindow
    have hearlier := ih fun call hcall => h call (List.mem_append_left _ hcall)
    have hcall := h call (List.mem_append_right _ List.mem_cons_self)
    exact (startedAt_foldl_take _ [call]).trans_le (startedAt_windowAt_le hcall hearlier)

/-- What a limiter finds is found within each window as if there were no other. -/
theorem run_eq (limit : Limit) (calls : List Call) :
    limit.entries none calls =
        (windows limit.length calls).flatMap (fun window => limit.within (started window) window) ∧
      limit.after none calls = limit.openWindow calls := by
  induction calls using List.reverseRecOn with
  | nil =>
    rw [openWindow, windows_nil]
    exact ⟨rfl, rfl⟩
  | append_singleton calls call ih =>
    obtain ⟨hentries, hafter⟩ := ih
    rw [entries_append, after_append_singleton, entries_singleton, hentries, hafter, advance]
    by_cases hcalls : calls = []
    · subst hcalls
      rw [List.nil_append, openWindow, openWindow, windows_nil, windows_singleton,
        List.getLast?_nil, Option.map_none, windowAt_none]
      exact ⟨rfl, rfl⟩
    · obtain ⟨earlier, first, rest, hwindows, hnext⟩ := windows_append_singleton hcalls call
      rw [openWindow, openWindow, hnext, hwindows, List.getLast?_concat, Option.map_some]
      have hopen : ((first :: rest).foldl limit.take (started (first :: rest))).startedAt =
          first.time := startedAt_foldl_take _ _
      by_cases hover : limit.length ≤ call.time - first.time
      · rw [if_pos hover, windowAt_over (by rwa [hopen]), List.getLast?_concat,
          @List.flatMap_append _ _ (earlier ++ _)]
        exact ⟨rfl, rfl⟩
      · rw [if_neg hover, windowAt_open (by rwa [hopen, ← Nat.not_le]), List.getLast?_concat,
          List.flatMap_append, List.flatMap_append, List.flatMap_singleton, List.flatMap_singleton,
          List.append_assoc, ← List.cons_append, within_append_singleton]
        refine ⟨rfl, ?_⟩
        rw [Option.map_some, List.foldl_append]
        rfl

/-! ### Admitted calls -/

def AdmitsAll (limit : Limit) (calls : List Call) : Prop :=
  ∀ entry ∈ limit.entries none calls, limit.fits entry = true

/-- All calls are admitted when those of every window fit together. -/
theorem admitsAll_iff :
    limit.AdmitsAll calls ↔ ∀ window ∈ windows limit.length calls, total window ≤ limit.allowance := by
  rw [AdmitsAll, (run_eq limit calls).1]
  have hwindow (window : List Call) :
      (∀ entry ∈ limit.within (started window) window, limit.fits entry = true) ↔
        total window ≤ limit.allowance := by
    have hfresh : (started window).used = 0 := by cases window <;> rfl
    rw [within_fits_iff (by omega), hfresh, Nat.zero_add]
  simp only [List.mem_flatMap, forall_exists_index, and_imp, ← hwindow]
  exact ⟨fun h window hmem entry hentry => h entry window hmem hentry,
    fun h entry window hmem hentry => h window hmem entry hentry⟩

section Denied

variable {state : Option Window}

/-- A call that fits an empty window is denied only by a window that is open. -/
theorem open_of_denied (hweight : call.weight ≤ limit.allowance)
    (hdenied : limit.fits (call, limit.windowAt state call.time) = false) :
    ∃ window, state = some window ∧ call.time - window.startedAt < limit.length ∧
      limit.windowAt state call.time = window := by
  have hused : (limit.windowAt state call.time).used ≠ 0 := by
    intro hfresh
    rw [fits, hfresh, decide_eq_false_iff_not] at hdenied
    exact hdenied hweight
  cases state with
  | none =>
    rw [windowAt_none] at hused
    exact absurd rfl hused
  | some window =>
    by_cases hover : limit.length ≤ call.time - window.startedAt
    · rw [windowAt_over hover] at hused
      exact absurd rfl hused
    · exact ⟨window, rfl, Nat.not_le.mp hover, windowAt_open (Nat.not_le.mp hover)⟩

theorem advance_of_denied (hweight : call.weight ≤ limit.allowance)
    (hdenied : limit.fits (call, limit.windowAt state call.time) = false) :
    some (limit.advance state call) = state := by
  obtain ⟨window, hstate, -, hwindow⟩ := open_of_denied hweight hdenied
  rw [advance, take, hdenied, if_neg Bool.false_ne_true, hwindow, hstate]

/-- After a call that was denied, one of no less weight is admitted when the window is over. -/
theorem fits_after_denied {next : Call} (hsame : call.weight ≤ next.weight)
    (hweight : next.weight ≤ limit.allowance)
    (hdenied : limit.fits (call, limit.windowAt state call.time) = false) :
    limit.fits (next, limit.windowAt (some (limit.advance state call)) next.time) = true ↔
      limit.length ≤ next.time - (limit.windowAt state call.time).startedAt := by
  obtain ⟨window, hstate, -, hwindow⟩ := open_of_denied (hsame.trans hweight) hdenied
  rw [advance_of_denied (hsame.trans hweight) hdenied, hstate]
  rw [hwindow] at hdenied
  rw [hstate] at hwindow
  rw [hwindow]
  by_cases hover : limit.length ≤ next.time - window.startedAt
  · rw [windowAt_over hover]
    exact iff_of_true (decide_eq_true hweight) hover
  · rw [windowAt_open (Nat.not_le.mp hover)]
    refine iff_of_false ?_ hover
    rw [fits, decide_eq_false_iff_not] at hdenied
    rw [fits, decide_eq_true_iff]
    dsimp only at hdenied ⊢
    omega

end Denied

section Admitted

variable {state : Option Window}

/-- The calls that are admitted. -/
def admitted (limit : Limit) (state : Option Window) (calls : List Call) : List Call :=
  ((limit.entries state calls).filter limit.fits).map Prod.fst

theorem entries_fst (limit : Limit) (state : Option Window) (calls : List Call) :
    (limit.entries state calls).map Prod.fst = calls := by
  induction calls generalizing state with
  | nil => rfl
  | cons call rest ih => rw [entries, List.map_cons, ih]

theorem admitted_sublist (limit : Limit) (state : Option Window) (calls : List Call) :
    (limit.admitted state calls).Sublist calls := by
  have hsublist :=
    (List.filter_sublist (p := limit.fits) (l := limit.entries state calls)).map Prod.fst
  rwa [entries_fst] at hsublist

/-- A limiter that is not asked for the denied calls admits all others as well. -/
theorem entries_admitted (hweights : ∀ call ∈ calls, call.weight ≤ limit.allowance)
    (state : Option Window) :
    ∀ entry ∈ limit.entries state (limit.admitted state calls), limit.fits entry = true := by
  induction calls generalizing state with
  | nil =>
    intro entry hentry
    cases hentry
  | cons call rest ih =>
    rw [List.forall_mem_cons] at hweights
    cases hfits : limit.fits (call, limit.windowAt state call.time) with
    | false =>
      have hrest := ih hweights.2 (some (limit.advance state call))
      rw [advance_of_denied hweights.1 hfits] at hrest
      rwa [admitted, entries, List.filter_cons_of_neg (by rw [hfits]; exact Bool.false_ne_true),
        advance_of_denied hweights.1 hfits]
    | true =>
      rw [admitted, entries, List.filter_cons_of_pos hfits, List.map_cons, entries,
        List.forall_mem_cons]
      exact ⟨hfits, ih hweights.2 _⟩

theorem admitsAll_admitted (hweights : ∀ call ∈ calls, call.weight ≤ limit.allowance) :
    limit.AdmitsAll (limit.admitted none calls) := entries_admitted hweights none

end Admitted

end Limit

/-! ### Calls during an interval -/

/-- The weight of the calls from `start` on and before `start + span`. -/
def during (start span : ℕ) (calls : List Call) : ℕ :=
  total (calls.filter fun call => start ≤ call.time ∧ call.time < start + span)

section During

variable {start span : ℕ}

theorem during_append (calls others : List Call) :
    during start span (calls ++ others) = during start span calls + during start span others := by
  rw [during, List.filter_append, total_append, during, during]

theorem during_le_total (start span : ℕ) (calls : List Call) : during start span calls ≤ total calls :=
  (List.filter_sublist.map Call.weight).sum_le_sum fun _ _ => Nat.zero_le _

theorem during_eq_zero (h : ∀ call ∈ calls, call.time < start ∨ start + span ≤ call.time) :
    during start span calls = 0 := by
  have hnone : (calls.filter fun call => start ≤ call.time ∧ call.time < start + span) = [] := by
    rw [List.filter_eq_nil_iff]
    intro call hcall
    rw [decide_eq_true_iff]
    have := h call hcall
    omega
  rw [during, hnone]
  rfl

theorem during_eq_total (h : ∀ call ∈ calls, start ≤ call.time ∧ call.time < start + span) :
    during start span calls = total calls := by
  rw [during, List.filter_eq_self.mpr]
  intro call hcall
  exact decide_eq_true (h call hcall)

end During

/-- The times of calls do not decrease. -/
def Ordered (calls : List Call) : Prop := calls.Pairwise (·.time ≤ ·.time)

theorem length_le_of_not_inside {first call : Call} (h : ¬inside length first call = true) :
    length ≤ call.time - first.time := by
  rwa [inside, decide_eq_true_iff, Nat.not_lt] at h

section Intervals

variable {first : Call} {rest : List Call}

theorem Ordered.dropWhile (hordered : Ordered (first :: rest)) (p : Call → Bool) :
    Ordered (rest.dropWhile p) :=
  (List.pairwise_cons.mp hordered).2.sublist (List.dropWhile_sublist _)

/-- A window holds the calls less than its length behind the first one. -/
theorem mem_window (length : ℕ) (hordered : Ordered (first :: rest)) :
    ∀ call ∈ first :: rest.takeWhile (inside length first),
      call = first ∨ first.time ≤ call.time ∧ call.time < first.time + length := by
  intro call hcall
  rcases List.mem_cons.mp hcall with rfl | hcall
  · exact Or.inl rfl
  · have hle := List.rel_of_pairwise_cons hordered ((List.takeWhile_prefix _).subset hcall)
    have hinside := List.mem_takeWhile_imp hcall
    rw [inside, decide_eq_true_iff] at hinside
    exact Or.inr (by omega)

/-- The calls behind a window are at least its length behind the first one. -/
theorem le_time_of_dropWhile (hordered : Ordered (first :: rest)) (hlength : 0 < length) :
    ∀ call ∈ rest.dropWhile (inside length first), first.time + length ≤ call.time := by
  intro call hcall
  cases hdrop : rest.dropWhile (inside length first) with
  | nil =>
    rw [hdrop] at hcall
    cases hcall
  | cons next others =>
    have hnext : ¬inside length first next = true := by
      have := List.head?_dropWhile_not (inside length first) rest
      rw [hdrop] at this
      simpa using this
    have hle : next.time ≤ call.time := by
      have hsuffix := hordered.dropWhile (inside length first)
      rw [hdrop] at hsuffix hcall
      rcases List.mem_cons.mp hcall with rfl | hcall
      · exact Nat.le_refl _
      · exact List.rel_of_pairwise_cons hsuffix hcall
    have hover := length_le_of_not_inside hnext
    omega

end Intervals

theorem during_cons_window (length : ℕ) {start span : ℕ} {first : Call} {rest : List Call} :
    during start span (first :: rest) =
      during start span (first :: rest.takeWhile (inside length first)) +
        during start span (rest.dropWhile (inside length first)) := by
  rw [← during_append, List.cons_append, List.takeWhile_append_dropWhile]

/-- Behind its first call, an interval no longer than a window meets one window only. -/
theorem during_le_of_from {start span allowance : ℕ} (hspan : span ≤ length)
    (hlength : 0 < length) (hordered : Ordered calls)
    (hfrom : ∀ call ∈ calls.head?, start ≤ call.time)
    (hwindows : ∀ window ∈ windows length calls, total window ≤ allowance) :
    during start span calls ≤ allowance := by
  cases calls with
  | nil => exact Nat.zero_le _
  | cons first rest =>
    have hfirst := hfrom first rfl
    have hbehind : during start span (rest.dropWhile (inside length first)) = 0 := by
      apply during_eq_zero
      intro call hcall
      have := le_time_of_dropWhile hordered hlength call hcall
      omega
    have hwindow := hwindows _ (by rw [windows_cons]; exact List.mem_cons_self)
    calc during start span (first :: rest)
        = during start span (first :: rest.takeWhile (inside length first)) + 0 := by
          rw [during_cons_window length, hbehind]
      _ ≤ allowance := by
          have := during_le_total start span (first :: rest.takeWhile (inside length first))
          omega

/-- An interval no longer than a window meets two windows at most, and of the first one
not the call that started it. -/
theorem during_le (start least : ℕ) {span allowance : ℕ} (hspan : span ≤ length) (hlength : 0 < length)
    (hordered : Ordered calls) (hleast : ∀ call ∈ calls, least ≤ call.weight)
    (hwindows : ∀ window ∈ windows length calls, total window ≤ allowance) :
    during start span calls ≤ max allowance (2 * allowance - least) := by
  induction calls using windows.induct length with
  | case1 => exact Nat.zero_le _
  | case2 first rest ih =>
    have hall := hwindows
    rw [windows_cons, List.forall_mem_cons] at hwindows
    have hsplit := @during_cons_window length start span first rest
    have hwindow := mem_window length hordered
    by_cases hover : first.time + length ≤ start
    · have hnone : during start span (first :: rest.takeWhile (inside length first)) = 0 := by
        apply during_eq_zero
        intro call hcall
        rcases hwindow call hcall with rfl | hcall <;> omega
      have hrest := ih (hordered.dropWhile _)
        (fun call hcall => hleast call (List.mem_cons_of_mem _
          ((List.dropWhile_suffix _).subset hcall))) hwindows.2
      omega
    · by_cases hfrom : start ≤ first.time
      · have hhead : ∀ call ∈ (first :: rest).head?, start ≤ call.time := by
          intro call hcall
          cases hcall
          exact hfrom
        have := during_le_of_from hspan hlength hordered hhead hall
        omega
      · have hlater : ∀ call ∈ (rest.dropWhile (inside length first)).head?, start ≤ call.time := by
          intro call hcall
          have := le_time_of_dropWhile hordered hlength call (List.mem_of_mem_head? hcall)
          omega
        have hbehind := during_le_of_from hspan hlength (hordered.dropWhile (inside length first))
          hlater hwindows.2
        have hwithout : during start span (first :: rest.takeWhile (inside length first)) =
            during start span (rest.takeWhile (inside length first)) := by
          rw [during, List.filter_cons_of_neg, during]
          rw [decide_eq_true_iff]
          omega
        have hweight := hleast first List.mem_cons_self
        have htotal := hwindows.1
        rw [total_cons] at htotal
        have := during_le_total start span (rest.takeWhile (inside length first))
        omega

/-- A single point of time meets one window only. -/
theorem during_instant_le (start : ℕ) {allowance : ℕ} (hlength : 0 < length) (hordered : Ordered calls)
    (hwindows : ∀ window ∈ windows length calls, total window ≤ allowance) :
    during start 1 calls ≤ allowance := by
  induction calls using windows.induct length with
  | case1 => exact Nat.zero_le _
  | case2 first rest ih =>
    rw [windows_cons, List.forall_mem_cons] at hwindows
    rw [during_cons_window length]
    by_cases hover : first.time + length ≤ start
    · have hnone : during start 1 (first :: rest.takeWhile (inside length first)) = 0 := by
        apply during_eq_zero
        intro call hcall
        rcases mem_window length hordered call hcall with rfl | hcall <;> omega
      have hrest := ih (hordered.dropWhile _) hwindows.2
      omega
    · have hbehind : during start 1 (rest.dropWhile (inside length first)) = 0 := by
        apply during_eq_zero
        intro call hcall
        have := le_time_of_dropWhile hordered hlength call hcall
        omega
      have := during_le_total start 1 (first :: rest.takeWhile (inside length first))
      omega

/-- A window lies within an interval of its length. -/
theorem total_window_le (hlength : 0 < length) (hordered : Ordered calls) :
    ∀ window ∈ windows length calls, ∃ start, total window ≤ during start length calls := by
  induction calls using windows.induct length with
  | case1 =>
    intro window hwindow
    rw [windows_nil] at hwindow
    cases hwindow
  | case2 first rest ih =>
    rw [windows_cons, List.forall_mem_cons]
    constructor
    · refine ⟨first.time, ?_⟩
      rw [during_cons_window length, during_eq_total]
      · exact Nat.le_add_right _ _
      · intro call hcall
        rcases mem_window length hordered call hcall with rfl | hcall <;> omega
    · intro window hwindow
      obtain ⟨start, hle⟩ := ih (hordered.dropWhile _) window hwindow
      refine ⟨start, ?_⟩
      rw [during_cons_window length]
      omega

/-! ### Tighter limits -/

/-- A limit that is tighter in both components may still admit calls that the other one
denies, since the two start their windows at different calls. -/
theorem Limit.AdmitsAll.loosen {inner outer : Limit} (least : ℕ) (hordered : Ordered calls)
    (hleast : ∀ call ∈ calls, least ≤ call.weight) (hlength : 0 < outer.length)
    (hallowance : inner.allowance ≤ outer.allowance) (hlonger : outer.length ≤ inner.length)
    (h : inner.length = outer.length ∨ outer.length = 1 ∨
      2 * inner.allowance ≤ outer.allowance + least)
    (hadmits : inner.AdmitsAll calls) : outer.AdmitsAll calls := by
  have hpositive : 0 < inner.length := Nat.lt_of_lt_of_le hlength hlonger
  rw [Limit.admitsAll_iff] at hadmits ⊢
  intro window hwindow
  obtain ⟨start, hduring⟩ := total_window_le hlength hordered window hwindow
  rcases h with hsame | hinstant | hdouble
  · rw [← hsame] at hwindow
    exact (hadmits window hwindow).trans hallowance
  · rw [hinstant] at hduring
    have := during_instant_le start hpositive hordered hadmits
    omega
  · have := during_le start least hlonger hpositive hordered hleast hadmits
    omega

theorem windows_pair {first second : List Call} {call next : Call}
    (hfirst : ∀ other ∈ first, inside length call other = true)
    (hnext : ¬inside length call next = true)
    (hsecond : ∀ other ∈ second, inside length next other = true) :
    windows length (call :: first ++ next :: second) = [call :: first, next :: second] := by
  have htake : (first ++ next :: second).takeWhile (inside length call) = first := by
    rw [List.takeWhile_append_of_pos hfirst, List.takeWhile_cons_of_neg hnext, List.append_nil]
  have hdrop : (first ++ next :: second).dropWhile (inside length call) = next :: second := by
    rw [List.dropWhile_append_of_pos hfirst, List.dropWhile_cons_of_neg hnext]
  rw [List.cons_append, windows_cons, htake, hdrop, windows_cons,
    List.takeWhile_eq_self_iff.mpr hsecond, List.dropWhile_eq_nil_iff.mpr hsecond, windows_nil]

section Boundary

variable {inner outer : Limit} {first next last : Call} {early late : List Call}

/-- Calls at both sides of a boundary between windows fall into one window of a shorter
limit, if that limit starts it there. -/
theorem admitsAll_boundary (hlength : 1 < outer.length) (hlonger : outer.length < inner.length)
    (hfirst : first.time = 0) (hnext : ∀ call ∈ next :: early, call.time = inner.length - 1)
    (hlast : ∀ call ∈ last :: late, call.time = inner.length)
    (hbefore : total (first :: next :: early) ≤ inner.allowance)
    (hbehind : total (last :: late) ≤ inner.allowance)
    (hboth : outer.allowance < total (next :: early ++ last :: late)) :
    Ordered (first :: next :: early ++ last :: late) ∧
      inner.AdmitsAll (first :: next :: early ++ last :: late) ∧
      ¬outer.AdmitsAll (first :: next :: early ++ last :: late) := by
  have hnextTime := hnext next List.mem_cons_self
  have hlastTime := hlast last List.mem_cons_self
  refine ⟨?_, ?_, ?_⟩
  · rw [Ordered, List.pairwise_append, List.pairwise_cons]
    refine ⟨⟨fun call _ => by omega, List.pairwise_of_forall_mem_list fun call hcall other hother => ?_⟩,
      List.pairwise_of_forall_mem_list fun call hcall other hother => ?_,
      fun call hcall other hother => ?_⟩
    · rw [hnext call hcall, hnext other hother]
    · rw [hlast call hcall, hlast other hother]
    · have := hlast other hother
      rcases List.mem_cons.mp hcall with rfl | hcall
      · omega
      · have := hnext call hcall
        omega
  · have hwindows : windows inner.length (first :: next :: early ++ last :: late) =
        [first :: next :: early, last :: late] := by
      apply windows_pair
      · intro call hcall
        rw [inside, decide_eq_true_iff, hnext call hcall]
        omega
      · rw [inside, decide_eq_true_iff]
        omega
      · intro call hcall
        rw [inside, decide_eq_true_iff, hlast call (List.mem_cons_of_mem _ hcall)]
        omega
    rw [Limit.admitsAll_iff, hwindows, List.forall_mem_cons, List.forall_mem_singleton]
    exact ⟨hbefore, hbehind⟩
  · have hwindows : windows outer.length (first :: next :: early ++ last :: late) =
        [[first], next :: early ++ last :: late] := by
      apply windows_pair (List.forall_mem_nil _)
      · rw [inside, decide_eq_true_iff]
        omega
      · intro call hcall
        rw [inside, decide_eq_true_iff]
        rcases List.mem_append.mp hcall with hcall | hcall
        · have := hnext call (List.mem_cons_of_mem _ hcall)
          omega
        · have := hlast call hcall
          omega
    rw [Limit.admitsAll_iff, hwindows, List.forall_mem_cons, List.forall_mem_singleton]
    rintro ⟨-, htotal⟩
    omega

end Boundary

theorem total_ones {calls : List Call} (h : ∀ call ∈ calls, call.weight = 1) :
    total calls = calls.length := by
  rw [total, List.map_congr_left h, List.map_const', List.sum_replicate_nat, Nat.mul_one]

section Loosen

variable {inner outer : Limit}

/-- When all calls that a tighter limit admits are admitted by the other limit, for
calls that weigh one each. -/
theorem forall_admitsAll_iff_of_ones (houter : 0 < outer.allowance) (hlength : 0 < outer.length)
    (hallowance : inner.allowance ≤ outer.allowance) (hlonger : outer.length ≤ inner.length) :
    (∀ calls, Ordered calls → (∀ call ∈ calls, call.weight = 1) → inner.AdmitsAll calls →
        outer.AdmitsAll calls) ↔
      inner.length = outer.length ∨ outer.length = 1 ∨
        2 * inner.allowance ≤ outer.allowance + 1 := by
  constructor
  · intro hall
    by_contra hnone
    rw [not_or, not_or] at hnone
    obtain ⟨hsame, hinstant, hdouble⟩ := hnone
    obtain ⟨count, hcount⟩ : ∃ count, inner.allowance = count + 2 :=
      ⟨inner.allowance - 2, by omega⟩
    have htimes (count time : ℕ) :
        ∀ call ∈ List.replicate count (Call.mk time 1), call.time = time :=
      fun call hcall => by rw [List.eq_of_mem_replicate hcall]
    have hones : ∀ call ∈ Call.mk 0 1 :: List.replicate (count + 1) ⟨inner.length - 1, 1⟩ ++
        List.replicate (count + 2) ⟨inner.length, 1⟩, call.weight = 1 := by
      intro call hcall
      simp only [List.mem_append, List.mem_cons, List.mem_replicate] at hcall
      rcases hcall with (rfl | ⟨-, rfl⟩) | ⟨-, rfl⟩ <;> rfl
    have htotal (count time : ℕ) : total (List.replicate count ⟨time, 1⟩) = count := by
      rw [total_ones fun call hcall => by rw [List.eq_of_mem_replicate hcall],
        List.length_replicate]
    obtain ⟨hordered, hinner, hnot⟩ := @admitsAll_boundary inner outer ⟨0, 1⟩
      ⟨inner.length - 1, 1⟩ ⟨inner.length, 1⟩ (List.replicate count ⟨inner.length - 1, 1⟩)
      (List.replicate (count + 1) ⟨inner.length, 1⟩) (by omega) (by omega) rfl
      (htimes (count + 1) _) (htimes (count + 2) _)
      (by rw [total_cons, ← List.replicate_succ, htotal]; dsimp only; omega)
      (by rw [← List.replicate_succ, htotal]; omega)
      (by rw [← List.replicate_succ, ← List.replicate_succ, total_append, htotal, htotal]; omega)
    exact hnot (hall _ hordered hones hinner)
  · intro h calls hordered hones hadmits
    exact hadmits.loosen 1 hordered (fun call hcall => (hones call hcall).ge) hlength hallowance hlonger h

/-- When all calls that a tighter limit admits are admitted by the other limit, for
calls of any weights. -/
theorem forall_admitsAll_iff (hlength : 0 < outer.length)
    (hallowance : inner.allowance ≤ outer.allowance) (hlonger : outer.length ≤ inner.length) :
    (∀ calls, Ordered calls → inner.AdmitsAll calls → outer.AdmitsAll calls) ↔
      inner.length = outer.length ∨ outer.length = 1 ∨ 2 * inner.allowance ≤ outer.allowance := by
  constructor
  · intro hall
    by_contra hnone
    rw [not_or, not_or] at hnone
    obtain ⟨hsame, hinstant, hdouble⟩ := hnone
    obtain ⟨hordered, hinner, hnot⟩ := @admitsAll_boundary inner outer ⟨0, 0⟩
      ⟨inner.length - 1, inner.allowance⟩ ⟨inner.length, inner.allowance⟩ [] [] (by omega)
      (by omega) rfl (by simp) (by simp) (by simp [total]) (by simp [total])
      (by simp [total]; omega)
    exact hnot (hall _ hordered hinner)
  · intro h calls hordered hadmits
    exact hadmits.loosen 0 hordered (fun _ _ => Nat.zero_le _) hlength hallowance hlonger h

end Loosen

end Ketebe.Lib.FixedWindow
