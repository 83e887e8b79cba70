import Ketebe.Lib.SlidingLog

/-!
The limit on the requests to the MCP server. A request reads the clock and then waits for
the lock of the queue, so the queue may see the times out of order.
-/
namespace Ketebe

open Lib.SlidingLog

/-- Times are in nanoseconds. -/
structure RateLimitState where
  limit : ℕ
  window : ℕ
  requests : List ℕ
  deriving DecidableEq, Repr

namespace RateLimitState

def second : ℕ := 1000000000

def perSecond (limit : ℕ) : RateLimitState := ⟨max limit 1, second, []⟩

/-- The loop that pops the front. A duration since a later time is zero. -/
def popExpired (window now : ℕ) : List ℕ → List ℕ
  | [] => []
  | seen :: rest => if window ≤ now - seen then popExpired window now rest else seen :: rest

def allow (state : RateLimitState) (now : ℕ) : RateLimitState × Bool :=
  let requests := popExpired state.window now state.requests
  if state.limit ≤ requests.length then ({ state with requests }, false)
  else ({ state with requests := requests ++ [now] }, true)

/-- The requests in the order in which they get the lock, with the answers. -/
def serve : RateLimitState → List ℕ → List (ℕ × Bool)
  | _, [] => []
  | state, now :: rest => (now, (state.allow now).2) :: serve (state.allow now).1 rest

def toLimit (state : RateLimitState) : Limit := ⟨state.limit, state.window⟩

theorem popExpired_eq (state : RateLimitState) (now : ℕ) (requests : List ℕ) :
    popExpired state.window now requests = state.toLimit.current requests now := by
  induction requests with
  | nil => rfl
  | cons seen rest ih =>
    have hstep : state.toLimit.current (seen :: rest) now =
        if state.toLimit.expired now seen then state.toLimit.current rest now else seen :: rest :=
      List.dropWhile_cons
    rw [popExpired, ih, hstep]
    by_cases hexpired : state.window ≤ now - seen
    · rw [if_pos hexpired, if_pos (expired_iff.mpr hexpired)]
    · rw [if_neg hexpired, if_neg fun h => hexpired (expired_iff.mp h)]

theorem allow_eq (state : RateLimitState) (now : ℕ) : state.allow now =
    ({ state with requests := state.toLimit.advance state.requests now },
      state.toLimit.admits state.requests now) := by
  unfold allow
  dsimp only
  rw [popExpired_eq, Limit.advance, Limit.admits]
  by_cases hfull : state.limit ≤ (state.toLimit.current state.requests now).length
  · have hnot : ¬(state.toLimit.current state.requests now).length < state.toLimit.allowance :=
      not_lt.mpr hfull
    rw [if_pos hfull, decide_eq_false hnot, if_neg Bool.false_ne_true]
  · have hroom : (state.toLimit.current state.requests now).length < state.toLimit.allowance :=
      not_le.mp hfull
    rw [if_neg hfull, decide_eq_true hroom, if_pos rfl]

theorem serve_eq (state : RateLimitState) (times : List ℕ) :
    state.serve times = state.toLimit.answers state.requests times := by
  induction times generalizing state with
  | nil => rfl
  | cons now rest ih =>
    rw [serve, Limit.answers, allow_eq, ih]
    rfl

/-- The queue decides as a count of all admitted requests of the last second would. -/
theorem serve_perSecond_eq_counted (limit : ℕ) {times : List ℕ} (h : times.Pairwise (· ≤ ·)) :
    (perSecond limit).serve times = Limit.counted ⟨max limit 1, second⟩ [] times := by
  rw [serve_eq]
  exact answers_eq_counted h

theorem serve_perSecond_eq_counted_two :
    (perSecond 1).serve [0, second] = Limit.counted ⟨1, second⟩ [] [0, second] :=
  serve_perSecond_eq_counted 1 (by decide)

/-- A request reads the clock before it gets the lock. -/
structure Request where
  readAt : ℕ
  lockedAt : ℕ
  waits : readAt ≤ lockedAt

/-- However requests overtake each other on the way to the lock: as many admitted ones apart
as the limit they are a second apart, up to the longest wait. -/
theorem serve_perSecond_apart (limit : ℕ) {requests : List Request} {wait : ℕ}
    (hlocked : requests.Pairwise fun first last => first.lockedAt ≤ last.lockedAt)
    (hwait : ∀ request ∈ requests, request.lockedAt ≤ request.readAt + wait)
    (index : ℕ) {first last : ℕ}
    (hfirst : (admitted ((perSecond limit).serve (requests.map Request.readAt)))[index]? =
      some first)
    (hlast : (admitted ((perSecond limit).serve
      (requests.map Request.readAt)))[index + max limit 1]? = some last) :
    first + second ≤ last + wait := by
  have hskew : (requests.map Request.readAt).Pairwise fun time later => time ≤ later + wait := by
    refine List.pairwise_map.mpr (hlocked.imp_of_mem fun {earlier later} _ hlater hle => ?_)
    have hearlier := earlier.waits
    have hdelay := hwait later hlater
    omega
  have hsecond : 0 < (perSecond limit).toLimit.length := Nat.zero_lt_succ _
  rw [serve_eq] at hfirst hlast
  exact admitted_apart hsecond hskew index hfirst hlast

/-- The last request waits half a second and is overtaken. -/
def overtaken : List Request :=
  [⟨0, 0, le_rfl⟩, ⟨second, second, le_rfl⟩, ⟨600000000, 1100000000, by decide⟩]

theorem serve_perSecond_apart_overtaken : 0 + second ≤ second + 500000000 :=
  @serve_perSecond_apart 1 overtaken 500000000 (by decide) (by decide) 0 0 second (by decide)
    (by decide)

end RateLimitState

end Ketebe
