import Mathlib.Algebra.Order.Group.Nat
import Mathlib.Data.List.Induction
import Mathlib.Data.List.TakeWhile
import Mathlib.Data.Nat.Notation

/-!
Limiters with a log of the admitted calls. A call removes what is over from the front of the
log and is admitted when less than the allowance is left. For times in order that is the
count of the admitted calls in the window that ends at the call.
-/
namespace Ketebe.Lib.SlidingLog

structure Limit where
  allowance : ℕ
  length : ℕ
  deriving DecidableEq, Repr

namespace Limit

variable (limit : Limit)

def expired (now seen : ℕ) : Bool := limit.length ≤ now - seen

/-- What a call finds: the log without what is over at its front. -/
def current (log : List ℕ) (now : ℕ) : List ℕ := log.dropWhile (limit.expired now)

def admits (log : List ℕ) (now : ℕ) : Bool := (limit.current log now).length < limit.allowance

def advance (log : List ℕ) (now : ℕ) : List ℕ :=
  if limit.admits log now then limit.current log now ++ [now] else limit.current log now

/-- Every call with its answer. -/
def answers : List ℕ → List ℕ → List (ℕ × Bool)
  | _, [] => []
  | log, now :: rest => (now, limit.admits log now) :: answers (limit.advance log now) rest

/-- The same without a log: the calls that were admitted earlier are counted. -/
def counted : List ℕ → List ℕ → List (ℕ × Bool)
  | _, [] => []
  | earlier, now :: rest =>
    let recent := earlier.countP fun seen => now - seen < limit.length
    let admitted := decide (recent < limit.allowance)
    (now, admitted) :: counted (if admitted then earlier ++ [now] else earlier) rest

end Limit

def admitted (answers : List (ℕ × Bool)) : List ℕ :=
  (answers.filter fun answer => answer.2).map Prod.fst

variable {limit : Limit} {log earlier : List ℕ} {now : ℕ}

theorem admitted_cons (now : ℕ) (answer : Bool) (rest : List (ℕ × Bool)) :
    admitted ((now, answer) :: rest) = (if answer then [now] else []) ++ admitted rest := by
  cases answer <;> rfl

theorem expired_iff {seen : ℕ} : limit.expired now seen = true ↔ limit.length ≤ now - seen :=
  decide_eq_true_iff

/-! ### Times in order -/

/-- The log is what is left of the admitted calls, in order, when the rest is over. -/
structure Logs (limit : Limit) (now : ℕ) (earlier log : List ℕ) : Prop where
  ordered : earlier.Pairwise (· ≤ ·)
  bounded : ∀ seen ∈ earlier, seen ≤ now
  split : ∃ expired, earlier = expired ++ log ∧ ∀ seen ∈ expired, limit.length ≤ now - seen

namespace Logs

theorem later {next : ℕ} (h : Logs limit now earlier log) (hnext : now ≤ next) :
    Logs limit next earlier log := by
  obtain ⟨expired, hsplit, hexpired⟩ := h.split
  refine ⟨h.ordered, fun seen hseen => (h.bounded seen hseen).trans hnext, expired, hsplit, ?_⟩
  intro seen hseen
  have hlong := hexpired seen hseen
  omega

/-- Behind the first call that is not over there is none that is over. -/
theorem pairwise_current (h : log.Pairwise (· ≤ ·)) :
    ∀ seen ∈ limit.current log now, ¬limit.length ≤ now - seen := by
  induction log with
  | nil => exact fun seen hseen => absurd hseen List.not_mem_nil
  | cons first rest ih =>
    have hrest := List.pairwise_cons.mp h
    by_cases hfirst : limit.length ≤ now - first
    · have hdrop : limit.current (first :: rest) now = limit.current rest now :=
        List.dropWhile_cons_of_pos (expired_iff.mpr hfirst)
      rw [hdrop]
      exact ih hrest.2
    · have hkeep : limit.current (first :: rest) now = first :: rest := by
        refine List.dropWhile_cons_of_neg ?_
        rwa [expired_iff]
      rw [hkeep]
      intro seen hseen
      rcases List.mem_cons.mp hseen with rfl | hmem
      · exact hfirst
      · have hle := hrest.1 seen hmem
        omega

theorem current (h : Logs limit now earlier log) :
    Logs limit now earlier (limit.current log now) := by
  obtain ⟨expired, hsplit, hexpired⟩ := h.split
  refine ⟨h.ordered, h.bounded, expired ++ log.takeWhile (limit.expired now), ?_, ?_⟩
  · rw [List.append_assoc, Limit.current, List.takeWhile_append_dropWhile, hsplit]
  · intro seen hseen
    rcases List.mem_append.mp hseen with hmem | hmem
    · exact hexpired seen hmem
    · exact expired_iff.mp (List.mem_takeWhile_imp hmem)

/-- What is left of the log is what the count finds. -/
theorem length_current (h : Logs limit now earlier log) : (limit.current log now).length =
    earlier.countP fun seen => now - seen < limit.length := by
  obtain ⟨expired, hsplit, hexpired⟩ := h.current.split
  have hordered : log.Pairwise (· ≤ ·) := by
    obtain ⟨front, hfront, -⟩ := h.split
    have hall := h.ordered
    rw [hfront] at hall
    exact (List.pairwise_append.mp hall).2.1
  have hexpired' : expired.countP (fun seen => now - seen < limit.length) = 0 := by
    rw [List.countP_eq_zero]
    intro seen hseen
    rw [decide_eq_true_iff, not_lt]
    exact hexpired seen hseen
  rw [hsplit, List.countP_append, hexpired', Nat.zero_add, eq_comm, List.countP_eq_length]
  intro seen hseen
  rw [decide_eq_true_iff]
  exact Nat.not_le.mp (pairwise_current hordered seen hseen)

theorem push (h : Logs limit now earlier log) :
    Logs limit now (earlier ++ [now]) (log ++ [now]) := by
  obtain ⟨expired, hsplit, hexpired⟩ := h.split
  refine ⟨?_, ?_, expired, by rw [hsplit, List.append_assoc], hexpired⟩
  · refine List.pairwise_append.mpr ⟨h.ordered, List.pairwise_singleton _ _, ?_⟩
    intro seen hseen last hlast
    rw [List.mem_singleton.mp hlast]
    exact h.bounded seen hseen
  · intro seen hseen
    rcases List.mem_append.mp hseen with hmem | hmem
    · exact h.bounded seen hmem
    · exact (List.mem_singleton.mp hmem).le

/-- A log answers as the count does. -/
theorem answers_eq_counted {times : List ℕ} (h : Logs limit now earlier log)
    (htimes : (now :: times).Pairwise (· ≤ ·)) :
    limit.answers log times = limit.counted earlier times := by
  induction times generalizing now earlier log with
  | nil => rfl
  | cons next rest ih =>
    obtain ⟨hnow, hrest⟩ := List.pairwise_cons.mp htimes
    have hnext := h.later (hnow next (List.mem_cons_self ..))
    have hanswer : limit.admits log next = decide
        ((earlier.countP fun seen => next - seen < limit.length) < limit.allowance) := by
      rw [Limit.admits, hnext.length_current]
    rw [Limit.answers, Limit.counted, ← hanswer, Limit.advance]
    cases limit.admits log next with
    | true => exact congrArg _ (ih hnext.current.push hrest)
    | false => exact congrArg _ (ih hnext.current hrest)

end Logs

theorem answers_eq_counted {times : List ℕ} (h : times.Pairwise (· ≤ ·)) :
    limit.answers [] times = limit.counted [] times := by
  have hempty : Logs limit 0 [] [] :=
    ⟨List.Pairwise.nil, fun _ hmem => absurd hmem List.not_mem_nil, [], rfl,
      fun _ hmem => absurd hmem List.not_mem_nil⟩
  exact hempty.answers_eq_counted (List.pairwise_cons.mpr ⟨fun _ _ => Nat.zero_le _, h⟩)

/-! ### Times out of order -/

/-- The log holds the last admitted calls. Those before them were over for some call, and
as many calls apart as the allowance they are a window apart, up to the skew. -/
structure Spaced (limit : Limit) (skew : ℕ) (times earlier log : List ℕ) : Prop where
  short : log.length ≤ limit.allowance
  split : ∃ expired, earlier = expired ++ log ∧
    ∀ seen ∈ expired, ∃ time ∈ times, seen + limit.length ≤ time
  apart : ∀ index first last, earlier[index]? = some first →
    earlier[index + limit.allowance]? = some last → first + limit.length ≤ last + skew

namespace Spaced

variable {skew : ℕ} {times : List ℕ}

theorem current (h : Spaced limit skew times earlier log) (hlength : 0 < limit.length) (now : ℕ) :
    Spaced limit skew (times ++ [now]) earlier (limit.current log now) := by
  obtain ⟨expired, hsplit, hexpired⟩ := h.split
  refine ⟨(List.length_dropWhile_le _ _).trans h.short,
    ⟨expired ++ log.takeWhile (limit.expired now), ?_, ?_⟩, h.apart⟩
  · rw [List.append_assoc, Limit.current, List.takeWhile_append_dropWhile, hsplit]
  · intro seen hseen
    rcases List.mem_append.mp hseen with hmem | hmem
    · obtain ⟨time, htime, hle⟩ := hexpired seen hmem
      exact ⟨time, List.mem_append_left _ htime, hle⟩
    · have hle := expired_iff.mp (List.mem_takeWhile_imp hmem)
      exact ⟨now, List.mem_append_right _ (List.mem_singleton_self now), by omega⟩

/-- The call that many admitted calls ago is no longer in a log with room. -/
theorem push (h : Spaced limit skew times earlier log) (hroom : log.length < limit.allowance)
    (hskew : ∀ time ∈ times, time ≤ now + skew) :
    Spaced limit skew times (earlier ++ [now]) (log ++ [now]) := by
  obtain ⟨expired, hsplit, hexpired⟩ := h.split
  refine ⟨by rw [List.length_append]; exact hroom,
    ⟨expired, by rw [hsplit, List.append_assoc], hexpired⟩, ?_⟩
  intro index first last hfirst hlast
  by_cases hold : index + limit.allowance < earlier.length
  · rw [List.getElem?_append_left hold] at hlast
    rw [List.getElem?_append_left (by omega)] at hfirst
    exact h.apart index first last hfirst hlast
  · rw [List.getElem?_append_right (not_lt.mp hold)] at hlast
    obtain ⟨hzero, hnow⟩ := List.getElem?_eq_some_iff.mp hlast
    rw [List.length_singleton] at hzero
    have hlength := congrArg List.length hsplit
    rw [List.length_append] at hlength
    rw [hsplit, List.append_assoc, List.getElem?_append_left (by omega)] at hfirst
    obtain ⟨time, htime, hle⟩ := hexpired first (List.mem_of_getElem? hfirst)
    have hlate := hskew time htime
    have hlast : last = now := by
      rw [← hnow]
      exact List.getElem_singleton _
    omega

theorem answers {rest : List ℕ} (h : Spaced limit skew times earlier log)
    (hlength : 0 < limit.length)
    (hskew : (times ++ rest).Pairwise fun time later => time ≤ later + skew) :
    ∀ index first last, (earlier ++ admitted (limit.answers log rest))[index]? = some first →
      (earlier ++ admitted (limit.answers log rest))[index + limit.allowance]? = some last →
        first + limit.length ≤ last + skew := by
  induction rest generalizing times earlier log with
  | nil =>
    have hsame : earlier ++ admitted (limit.answers log []) = earlier := List.append_nil _
    rw [hsame]
    exact h.apart
  | cons now rest ih =>
    have hnext : (times ++ [now] ++ rest).Pairwise fun time later => time ≤ later + skew := by
      rwa [List.append_assoc]
    have hnow : ∀ time ∈ times ++ [now], time ≤ now + skew := by
      intro time htime
      rcases List.mem_append.mp htime with hmem | hmem
      · exact (List.pairwise_append.mp hskew).2.2 time hmem now (List.mem_cons_self ..)
      · rw [List.mem_singleton.mp hmem]
        exact Nat.le_add_right ..
    rw [Limit.answers, admitted_cons, ← List.append_assoc, Limit.advance]
    cases hadmits : limit.admits log now with
    | true =>
      have hroom : (limit.current log now).length < limit.allowance := of_decide_eq_true hadmits
      exact ih ((h.current hlength now).push hroom hnow) hnext
    | false =>
      have hsame : earlier ++ (if false = true then [now] else []) = earlier := List.append_nil _
      rw [hsame]
      exact ih (h.current hlength now) hnext

end Spaced

/-- Calls that are an allowance of admitted calls apart are a window apart, up to the skew. -/
theorem admitted_apart {times : List ℕ} {skew : ℕ} (hlength : 0 < limit.length)
    (hskew : times.Pairwise fun time later => time ≤ later + skew) (index : ℕ) {first last : ℕ}
    (hfirst : (admitted (limit.answers [] times))[index]? = some first)
    (hlast : (admitted (limit.answers [] times))[index + limit.allowance]? = some last) :
    first + limit.length ≤ last + skew := by
  have hempty : Spaced limit skew [] [] [] :=
    ⟨Nat.zero_le _, ⟨[], rfl, fun _ hmem => absurd hmem List.not_mem_nil⟩,
      fun _ _ _ h => absurd h (by simp)⟩
  exact hempty.answers hlength hskew index first last hfirst hlast

end Ketebe.Lib.SlidingLog
