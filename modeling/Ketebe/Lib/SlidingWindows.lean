import Mathlib.Data.List.Chain
import Mathlib.Logic.Relation

/-!
Overlapping windows over the positions below a length. A window that does not reach the
last position may end early, at a preferred break, and the next one steps back by the
overlap. The windows cover all positions; whether every window ends behind the previous
one is decided from the breaks alone.
-/
namespace Ketebe.Lib.SlidingWindows

/-- A window has at most `size` positions, and one that ends early at least `least`. -/
structure Policy where
  size : ℕ
  overlap : ℕ
  least : ℕ
  overlap_lt : overlap < size
  least_pos : 0 < least
  least_le : least ≤ size

variable (policy : Policy) (preferred : List ℕ) (length : ℕ)

/-- The last preferred break from `low` to `high`. -/
def lastBreak (low high : ℕ) : Option ℕ :=
  (preferred.filter fun position => low ≤ position && position ≤ high).max?

def windowEnd (start : ℕ) : ℕ :=
  let hardEnd := min (start + policy.size) length
  if hardEnd = length then hardEnd
  else (lastBreak preferred (min (start + policy.least) hardEnd) hardEnd).getD hardEnd

def nextStart (start stop : ℕ) : ℕ :=
  let candidate := stop - policy.overlap
  if candidate ≤ start then stop else candidate

variable {policy preferred length} {start stop low high position : ℕ}

theorem lastBreak_eq_some : lastBreak preferred low high = some position ↔
    (position ∈ preferred ∧ low ≤ position ∧ position ≤ high) ∧
      ∀ other ∈ preferred, other ≤ high → other ≤ position ∨ other < low := by
  rw [lastBreak, List.max?_eq_some_iff]
  simp only [List.mem_filter, Bool.and_eq_true, decide_eq_true_eq]
  constructor
  · rintro ⟨hmem, hmax⟩
    refine ⟨hmem, fun other hother hhigh => ?_⟩
    by_cases hlow : low ≤ other
    · exact Or.inl (hmax other ⟨hother, hlow, hhigh⟩)
    · exact Or.inr (by omega)
  · rintro ⟨hmem, hmax⟩
    refine ⟨hmem, fun other hother => ?_⟩
    have h := hmax other hother.1 hother.2.2
    omega

theorem lastBreak_eq_none : lastBreak preferred low high = none ↔
    ∀ other ∈ preferred, other ≤ high → other < low := by
  rw [lastBreak, List.max?_eq_none_iff, List.filter_eq_nil_iff]
  refine forall₂_congr fun other _ => ?_
  simp only [Bool.and_eq_true, decide_eq_true_eq]
  omega

variable (policy preferred length start) in
/-- A window ends with the last position, at its last break, or after `size` positions. -/
theorem windowEnd_cases :
    (length ≤ start + policy.size ∧ windowEnd policy preferred length start = length) ∨
    (start + policy.size < length ∧
      lastBreak preferred (start + policy.least) (start + policy.size) =
        some (windowEnd policy preferred length start)) ∨
    (start + policy.size < length ∧
      lastBreak preferred (start + policy.least) (start + policy.size) = none ∧
      windowEnd policy preferred length start = start + policy.size) := by
  have hleast := policy.least_le
  by_cases hend : length ≤ start + policy.size
  · have hhard : min (start + policy.size) length = length := min_eq_right hend
    exact Or.inl ⟨hend, by rw [windowEnd, hhard, if_pos rfl]⟩
  · have hlt : start + policy.size < length := by omega
    have hhard : min (start + policy.size) length = start + policy.size :=
      min_eq_left (by omega)
    have hlow : min (start + policy.least) (start + policy.size) = start + policy.least :=
      min_eq_left (by omega)
    have hvalue : windowEnd policy preferred length start =
        (lastBreak preferred (start + policy.least) (start + policy.size)).getD
          (start + policy.size) := by
      rw [windowEnd, hhard, if_neg (by omega), hlow]
    right
    cases hbreak : lastBreak preferred (start + policy.least) (start + policy.size) with
    | none => exact Or.inr ⟨hlt, rfl, by rw [hvalue, hbreak, Option.getD_none]⟩
    | some position => exact Or.inl ⟨hlt, by rw [hvalue, hbreak, Option.getD_some]⟩

variable (policy preferred) in
theorem lt_windowEnd (hstart : start < length) :
    start < windowEnd policy preferred length start := by
  have hoverlap := policy.overlap_lt
  have hleast := policy.least_pos
  rcases windowEnd_cases policy preferred length start with h | ⟨_, h⟩ | h
  · omega
  · have hlow := (lastBreak_eq_some.mp h).1.2.1
    omega
  · omega

variable (policy) in
theorem lt_nextStart (hstop : start < stop) : start < nextStart policy start stop := by
  simp only [nextStart]
  split <;> omega

theorem nextStart_short (h : stop ≤ start + policy.overlap) :
    nextStart policy start stop = stop := by
  simp only [nextStart]
  exact if_pos (by omega)

theorem nextStart_long (h : start + policy.overlap < stop) :
    nextStart policy start stop = stop - policy.overlap := by
  simp only [nextStart]
  exact if_neg (by omega)

variable (policy preferred length)

/-- The windows from a start on, each with its first position and the one behind its last. -/
def windowsFrom (start : ℕ) : List (ℕ × ℕ) :=
  if _hstart : start < length then
    let stop := windowEnd policy preferred length start
    if stop = length then [(start, stop)]
    else (start, stop) :: windowsFrom (nextStart policy start stop)
  else []
termination_by length - start
decreasing_by
  have hnext := lt_nextStart policy (lt_windowEnd policy preferred _hstart)
  omega

def windows : List (ℕ × ℕ) := windowsFrom policy preferred length 0

variable {policy preferred length}

theorem windowsFrom_last (hstart : start < length)
    (hstop : windowEnd policy preferred length start = length) :
    windowsFrom policy preferred length start = [(start, length)] := by
  rw [windowsFrom, dif_pos hstart]
  simp only [hstop, ↓reduceIte]

theorem windowsFrom_next (hstart : start < length)
    (hstop : windowEnd policy preferred length start ≠ length) :
    windowsFrom policy preferred length start =
      (start, windowEnd policy preferred length start) ::
        windowsFrom policy preferred length
          (nextStart policy start (windowEnd policy preferred length start)) := by
  rw [windowsFrom, dif_pos hstart]
  simp only [hstop, ↓reduceIte]

variable (policy preferred length start) in
theorem windowEnd_le : windowEnd policy preferred length start ≤ length := by
  rcases windowEnd_cases policy preferred length start with h | ⟨hlt, h⟩ | h
  · omega
  · have hhigh := (lastBreak_eq_some.mp h).1.2.2
    omega
  · omega

variable (policy preferred length start) in
theorem windowEnd_le_add : windowEnd policy preferred length start ≤ start + policy.size := by
  rcases windowEnd_cases policy preferred length start with h | ⟨_, h⟩ | h
  · omega
  · exact (lastBreak_eq_some.mp h).1.2.2
  · omega

theorem least_le_windowEnd (hstop : windowEnd policy preferred length start ≠ length) :
    start + policy.least ≤ windowEnd policy preferred length start := by
  have hleast := policy.least_le
  rcases windowEnd_cases policy preferred length start with h | ⟨_, h⟩ | h
  · exact absurd h.2 hstop
  · exact (lastBreak_eq_some.mp h).1.2.1
  · omega

variable (policy start stop) in
theorem nextStart_le : nextStart policy start stop ≤ stop := by
  simp only [nextStart]
  split <;> omega

theorem le_nextStart_add : stop ≤ nextStart policy start stop + policy.overlap := by
  simp only [nextStart]
  split <;> omega

/-- The windows from a start on, one after the other: the last one reaches the end, and
every other one is followed by those from the next start on. -/
theorem windows_induction {motive : ℕ → List (ℕ × ℕ) → Prop}
    (last : ∀ start, start < length → windowEnd policy preferred length start = length →
      motive start [(start, length)])
    (next : ∀ start stop, start < stop → stop < length →
      windowEnd policy preferred length start = stop →
      motive (nextStart policy start stop)
        (windowsFrom policy preferred length (nextStart policy start stop)) →
      motive start
        ((start, stop) :: windowsFrom policy preferred length (nextStart policy start stop)))
    (hstart : start < length) :
    motive start (windowsFrom policy preferred length start) := by
  induction hn : length - start using Nat.strong_induction_on generalizing start with
  | _ n ih =>
    have hlt := lt_windowEnd policy preferred hstart
    have hle := windowEnd_le policy preferred length start
    by_cases hstop : windowEnd policy preferred length start = length
    · rw [windowsFrom_last hstart hstop]
      exact last start hstart hstop
    · rw [windowsFrom_next hstart hstop]
      have hnext := lt_nextStart policy hlt
      have hbound := nextStart_le policy start (windowEnd policy preferred length start)
      exact next start _ hlt (by omega) rfl (ih _ (by omega) (by omega) rfl)

/-! ### Coverage -/

theorem mem_windowsFrom (hstart : start < length) :
    ∀ window ∈ windowsFrom policy preferred length start,
      window.1 < window.2 ∧ window.2 ≤ window.1 + policy.size ∧ window.2 ≤ length := by
  refine windows_induction (motive := fun _ list => ∀ window ∈ list,
    window.1 < window.2 ∧ window.2 ≤ window.1 + policy.size ∧ window.2 ≤ length) ?_ ?_ hstart
  · intro start hstart hstop window hmem
    obtain rfl := List.mem_singleton.mp hmem
    have hle := windowEnd_le_add policy preferred length start
    exact ⟨hstart, by simpa only [hstop] using hle, le_rfl⟩
  · intro start stop hlt hbound hstop ih window hmem
    rcases List.mem_cons.mp hmem with rfl | hrest
    · have hle := windowEnd_le_add policy preferred length start
      exact ⟨hlt, by simpa only [hstop] using hle, hbound.le⟩
    · exact ih window hrest

theorem windowsFrom_covers (hstart : start < length) (position : ℕ) (hfrom : start ≤ position)
    (hto : position < length) : ∃ window ∈ windowsFrom policy preferred length start,
      window.1 ≤ position ∧ position < window.2 := by
  revert hfrom
  refine windows_induction (motive := fun start list => start ≤ position →
    ∃ window ∈ list, window.1 ≤ position ∧ position < window.2) ?_ ?_ hstart
  · intro start _ _ hfrom
    exact ⟨(start, length), List.mem_singleton_self _, hfrom, hto⟩
  · intro start stop hlt _ _ ih hfrom
    by_cases hinside : position < stop
    · exact ⟨(start, stop), List.mem_cons_self .., hfrom, hinside⟩
    · have hnext := nextStart_le policy start stop
      obtain ⟨window, hmem, hwindow⟩ := ih (by omega)
      exact ⟨window, List.mem_cons_of_mem _ hmem, hwindow⟩

/-- A window and the one behind it: no position lies between them, and they share at most
`overlap` positions. -/
structure Follows (policy : Policy) (first second : ℕ × ℕ) : Prop where
  later : first.1 < second.1
  noGap : second.1 ≤ first.2
  shared : first.2 ≤ second.1 + policy.overlap
  least : first.1 + policy.least ≤ first.2

variable (policy preferred) in
theorem head_windowsFrom (hstart : start < length) : ∃ rest,
    windowsFrom policy preferred length start =
      (start, windowEnd policy preferred length start) :: rest := by
  by_cases hstop : windowEnd policy preferred length start = length
  · exact ⟨[], by rw [windowsFrom_last hstart hstop, hstop]⟩
  · exact ⟨_, windowsFrom_next hstart hstop⟩

theorem windowsFrom_follows (hstart : start < length) :
    (windowsFrom policy preferred length start).IsChain (Follows policy) := by
  refine windows_induction (motive := fun _ list => list.IsChain (Follows policy)) ?_ ?_ hstart
  · intro start _ _
    exact List.isChain_singleton _
  · intro start stop hlt hbound hstop ih
    have hnext := nextStart_le policy start stop
    obtain ⟨rest, hrest⟩ := head_windowsFrom policy preferred (hnext.trans_lt hbound)
    rw [hrest] at ih ⊢
    have hleast : start + policy.least ≤ windowEnd policy preferred length start :=
      least_le_windowEnd (by omega)
    rw [hstop] at hleast
    exact List.isChain_cons_cons.mpr
      ⟨⟨lt_nextStart policy hlt, hnext, le_nextStart_add, hleast⟩, ih⟩

theorem mem_windows {window : ℕ × ℕ} (h : window ∈ windows policy preferred length) :
    window.1 < window.2 ∧ window.2 ≤ window.1 + policy.size ∧ window.2 ≤ length := by
  by_cases hlength : 0 < length
  · exact mem_windowsFrom hlength window h
  · rw [windows, windowsFrom, dif_neg hlength] at h
    exact absurd h List.not_mem_nil

variable (policy preferred) in
theorem windows_cover (hposition : position < length) :
    ∃ window ∈ windows policy preferred length, window.1 ≤ position ∧ position < window.2 :=
  windowsFrom_covers (by omega) position (Nat.zero_le position) hposition

variable (policy preferred length) in
theorem windows_follow : (windows policy preferred length).IsChain (Follows policy) := by
  by_cases hlength : 0 < length
  · exact windowsFrom_follows hlength
  · rw [windows, windowsFrom, dif_neg hlength]
    exact List.isChain_nil

/-! ### Windows inside the previous one -/

section Stalls

variable (policy preferred length)

/-- A break behind which a whole step of a window has no other one, and the text goes on. -/
structure Isolated (position : ℕ) : Prop where
  mem : position ∈ preferred
  continues : position + (policy.size - policy.overlap) < length
  alone : ∀ other ∈ preferred, other ≤ position + (policy.size - policy.overlap) →
    other ≤ position

/-- A window of at most `overlap` positions: the next one starts where it ends. -/
structure ShortWindow (start stop : ℕ) : Prop where
  continues : start + policy.size < length
  mem : stop ∈ preferred
  least : start + policy.least ≤ stop
  short : stop ≤ start + policy.overlap
  alone : ∀ other ∈ preferred, other ≤ start + policy.size → other ≤ stop

/-- The starts that only short windows precede. -/
def Leads : ℕ → Prop := Relation.ReflTransGen (ShortWindow policy preferred length) 0

/-- Every isolated break comes at most `overlap` after a start that only short windows
precede. -/
def BreaksEarly : Prop := ∀ position, policy.least ≤ policy.overlap →
  Isolated policy preferred length position →
    ∃ lead, Leads policy preferred length lead ∧ position ≤ lead + policy.overlap

variable {policy preferred length}

theorem ShortWindow.windowEnd_eq (h : ShortWindow policy preferred length start stop) :
    windowEnd policy preferred length start = stop := by
  have hlast : lastBreak preferred (start + policy.least) (start + policy.size) = some stop := by
    have hoverlap := policy.overlap_lt
    have hshort := h.short
    exact lastBreak_eq_some.mpr ⟨⟨h.mem, h.least, by omega⟩,
      fun other hother hhigh => Or.inl (h.alone other hother hhigh)⟩
  have hcontinues := h.continues
  rcases windowEnd_cases policy preferred length start with hend | ⟨_, hbreak⟩ | ⟨_, hbreak, _⟩
  · omega
  · exact Option.some.inj (hbreak.symm.trans hlast)
  · rw [hlast] at hbreak
    cases hbreak

theorem shortWindow_of_windowEnd (hstop : windowEnd policy preferred length start = stop)
    (hbound : stop < length) (hshort : stop ≤ start + policy.overlap) :
    ShortWindow policy preferred length start stop := by
  have hoverlap := policy.overlap_lt
  rcases windowEnd_cases policy preferred length start with h | ⟨hcontinues, h⟩ | h
  · omega
  · rw [hstop] at h
    obtain ⟨⟨hmem, hlow, _⟩, hlast⟩ := lastBreak_eq_some.mp h
    refine ⟨hcontinues, hmem, hlow, hshort, fun other hother hhigh => ?_⟩
    have hother := hlast other hother hhigh
    omega
  · omega

theorem le_of_shortWindows {first second : ℕ}
    (h : Relation.ReflTransGen (ShortWindow policy preferred length) first second) :
    first ≤ second := by
  induction h with
  | refl => exact le_rfl
  | tail _ hstep ih =>
    have hleast := hstep.least
    omega

/-- No start that only short windows precede lies behind a window that is not short. -/
theorem Leads.le {lead : ℕ} (hlead : Leads policy preferred length lead)
    (hstart : Leads policy preferred length start)
    (hlong : start + policy.overlap < windowEnd policy preferred length start) :
    lead ≤ start := by
  have hunique : Relator.RightUnique (ShortWindow policy preferred length) := by
    intro start first second hfirst hsecond
    exact hfirst.windowEnd_eq.symm.trans hsecond.windowEnd_eq
  rcases Relation.ReflTransGen.total_of_right_unique hunique hlead hstart with h | h
  · exact le_of_shortWindows h
  · rcases Relation.ReflTransGen.cases_head h with rfl | ⟨next, hstep, _⟩
    · exact le_rfl
    · have hshort := hstep.short
      rw [hstep.windowEnd_eq] at hlong
      omega

/-- Where the window after one that is not short does not end behind it, both end at the
same break. -/
theorem isolated_of_stall (hlong : start + policy.overlap < stop)
    (hstop : windowEnd policy preferred length start = stop) (hbound : stop < length)
    (hstall : windowEnd policy preferred length (stop - policy.overlap) ≤ stop) :
    policy.least ≤ policy.overlap ∧ Isolated policy preferred length stop := by
  have hoverlap := policy.overlap_lt
  rcases windowEnd_cases policy preferred length (stop - policy.overlap) with
    h | ⟨hcontinues, hbreak⟩ | h
  · omega
  · obtain ⟨⟨hmem, hlow, _⟩, hlast⟩ := lastBreak_eq_some.mp hbreak
    have hsame : windowEnd policy preferred length (stop - policy.overlap) = stop := by
      rcases windowEnd_cases policy preferred length start with h | ⟨_, h⟩ | ⟨_, h, hend⟩
      · omega
      · rw [hstop] at h
        have hother := hlast stop (lastBreak_eq_some.mp h).1.1 (by omega)
        omega
      · have hother := lastBreak_eq_none.mp h _ hmem (by omega)
        omega
    rw [hsame] at hmem hlow hlast
    refine ⟨by omega, hmem, by omega, fun other hother hhigh => ?_⟩
    have h := hlast other hother (by omega)
    omega
  · omega

/-- A window that is not short and ends at an isolated break is followed by one that
ends there too. -/
theorem Isolated.stalls {position : ℕ} (h : Isolated policy preferred length position)
    (hleast : policy.least ≤ policy.overlap) (hoverlap : policy.overlap ≤ position) :
    windowEnd policy preferred length (position - policy.overlap) = position := by
  have hlt := policy.overlap_lt
  have hcontinues := h.continues
  have hlast : lastBreak preferred (position - policy.overlap + policy.least)
      (position - policy.overlap + policy.size) = some position := by
    refine lastBreak_eq_some.mpr ⟨⟨h.mem, by omega, by omega⟩, fun other hother hhigh => ?_⟩
    exact Or.inl (h.alone other hother (by omega))
  rcases windowEnd_cases policy preferred length (position - policy.overlap) with
    hend | ⟨_, hbreak⟩ | ⟨_, hbreak, _⟩
  · omega
  · exact Option.some.inj (hbreak.symm.trans hlast)
  · rw [hlast] at hbreak
    cases hbreak

/-- A window that starts more than `overlap` before an isolated break does not end behind it. -/
theorem Isolated.windowEnd_le {position : ℕ} (h : Isolated policy preferred length position)
    (hleast : policy.least ≤ policy.overlap) (hbefore : start + policy.overlap < position) :
    windowEnd policy preferred length start ≤ position := by
  have hlt := policy.overlap_lt
  have hcontinues := h.continues
  rcases windowEnd_cases policy preferred length start with hend | ⟨_, hbreak⟩ | ⟨_, hbreak, hend⟩
  · omega
  · obtain ⟨⟨hmem, _, hhigh⟩, _⟩ := lastBreak_eq_some.mp hbreak
    exact h.alone _ hmem (by omega)
  · by_cases hreach : position ≤ start + policy.size
    · have hother := lastBreak_eq_none.mp hbreak position h.mem hreach
      omega
    · omega

def EndsIncrease (list : List (ℕ × ℕ)) : Prop :=
  list.IsChain fun first second => first.2 < second.2

theorem endsIncrease_next (hstart : start < length)
    (hstop : windowEnd policy preferred length start = stop) (hbound : stop < length) :
    EndsIncrease (windowsFrom policy preferred length start) ↔
      stop < windowEnd policy preferred length (nextStart policy start stop) ∧
        EndsIncrease (windowsFrom policy preferred length (nextStart policy start stop)) := by
  have hnext := nextStart_le policy start stop
  obtain ⟨rest, hrest⟩ := head_windowsFrom policy preferred (hnext.trans_lt hbound)
  rw [windowsFrom_next hstart (by omega), hstop, hrest]
  exact List.isChain_cons_cons

/-- Behind a window that is not short, an isolated break is reached and stops the ends. -/
theorem Isolated.not_endsIncrease {position : ℕ}
    (h : Isolated policy preferred length position) (hleast : policy.least ≤ policy.overlap)
    (hbefore : start + policy.overlap < position)
    (hlong : start + policy.overlap < windowEnd policy preferred length start) :
    ¬EndsIncrease (windowsFrom policy preferred length start) := by
  induction hn : length - start using Nat.strong_induction_on generalizing start with
  | _ n ih =>
    have hcontinues := h.continues
    have hend := h.windowEnd_le hleast hbefore
    rw [endsIncrease_next (by omega) rfl (by omega), nextStart_long hlong]
    rintro ⟨hlater, hrest⟩
    by_cases hreached : windowEnd policy preferred length start = position
    · rw [hreached, h.stalls hleast (by omega)] at hlater
      exact hlater.false
    · exact ih _ (by omega) (by omega) (by omega) rfl hrest

theorem Isolated.not_endsIncrease_of_leads {position : ℕ}
    (h : Isolated policy preferred length position) (hleast : policy.least ≤ policy.overlap)
    (hbehind : ∀ lead, Leads policy preferred length lead → lead + policy.overlap < position)
    (hstart : Leads policy preferred length start) :
    ¬EndsIncrease (windowsFrom policy preferred length start) := by
  induction hn : length - start using Nat.strong_induction_on generalizing start with
  | _ n ih =>
    have hbefore := hbehind start hstart
    have hcontinues := h.continues
    have hend := h.windowEnd_le hleast hbefore
    by_cases hshort : windowEnd policy preferred length start ≤ start + policy.overlap
    · have hwindow := shortWindow_of_windowEnd rfl (by omega) hshort
      have hlater := lt_windowEnd policy preferred (by omega : start < length)
      rw [endsIncrease_next (by omega) rfl (by omega), nextStart_short hshort]
      rintro ⟨-, hrest⟩
      exact ih _ (by omega) (hstart.tail hwindow) rfl hrest
    · exact h.not_endsIncrease hleast hbefore (by omega)

/-- What the loop keeps: only short windows precede a start, or it lies behind all of
these. -/
theorem endsIncrease_of_breaksEarly (hearly : BreaksEarly policy preferred length)
    (hstart : start < length) (hinv : Leads policy preferred length start ∨
      ∀ lead, Leads policy preferred length lead → lead ≤ start) :
    EndsIncrease (windowsFrom policy preferred length start) := by
  revert hinv
  refine windows_induction (motive := fun start list => (Leads policy preferred length start ∨
    ∀ lead, Leads policy preferred length lead → lead ≤ start) → EndsIncrease list) ?_ ?_ hstart
  · intro start _ _ _
    exact List.isChain_singleton _
  · intro start stop hlt hbound hstop ih hinv
    have hstep := endsIncrease_next (hlt.trans hbound) hstop hbound
    rw [windowsFrom_next (hlt.trans hbound) (by omega), hstop] at hstep
    refine hstep.mpr ?_
    by_cases hshort : stop ≤ start + policy.overlap
    · rw [nextStart_short hshort] at ih ⊢
      refine ⟨lt_windowEnd policy preferred hbound, ih ?_⟩
      rcases hinv with hlead | hall
      · exact Or.inl (hlead.tail (shortWindow_of_windowEnd hstop hbound hshort))
      · exact Or.inr fun lead hlead => (hall lead hlead).trans hlt.le
    · rw [nextStart_long (by omega)] at ih ⊢
      have hbehind (lead : ℕ) (hlead : Leads policy preferred length lead) : lead ≤ start := by
        rcases hinv with hleadStart | hall
        · exact hlead.le hleadStart (by omega)
        · exact hall lead hlead
      refine ⟨Nat.lt_of_not_le fun hstall => ?_, ih (Or.inr fun lead hlead => ?_)⟩
      · obtain ⟨hleast, h⟩ := isolated_of_stall (by omega) hstop hbound hstall
        obtain ⟨lead, hlead, hreach⟩ := hearly stop hleast h
        have hle := hbehind lead hlead
        omega
      · have hle := hbehind lead hlead
        omega

theorem endsIncrease_iff :
    EndsIncrease (windows policy preferred length) ↔ BreaksEarly policy preferred length := by
  constructor
  · intro hends position hleast h
    by_contra! hbehind
    exact h.not_endsIncrease_of_leads hleast hbehind Relation.ReflTransGen.refl hends
  · intro hearly
    by_cases hlength : 0 < length
    · exact endsIncrease_of_breaksEarly hearly hlength (Or.inl Relation.ReflTransGen.refl)
    · rw [windows, windowsFrom, dif_neg hlength]
      exact List.isChain_nil

end Stalls

/-! ### Windows without breaks -/

section NoBreaks

variable (policy length start) in
theorem windowEnd_noBreaks :
    windowEnd policy [] length start = min (start + policy.size) length := by
  have hnone : lastBreak [] (start + policy.least) (start + policy.size) = none :=
    lastBreak_eq_none.mpr fun _ hother => absurd hother List.not_mem_nil
  rcases windowEnd_cases policy [] length start with ⟨hend, h⟩ | ⟨_, h⟩ | ⟨hlt, _, h⟩
  · rw [h, min_eq_right hend]
  · rw [hnone] at h
    cases h
  · rw [h, min_eq_left hlt.le]

theorem nextStart_noBreaks (hbound : windowEnd policy [] length start < length) :
    nextStart policy start (windowEnd policy [] length start) =
      start + (policy.size - policy.overlap) := by
  have hoverlap := policy.overlap_lt
  rw [windowEnd_noBreaks] at hbound ⊢
  have hstop : min (start + policy.size) length = start + policy.size := by omega
  rw [hstop, nextStart_long (by omega)]
  omega

/-- There is a next window exactly when the overlap does not reach the end. -/
theorem windowsFrom_getElem? (hstart : start < length) (i : ℕ) :
    (windowsFrom policy [] length start)[i]? =
      if i = 0 ∨ start + i * (policy.size - policy.overlap) + policy.overlap < length then
        some (start + i * (policy.size - policy.overlap),
          min (start + i * (policy.size - policy.overlap) + policy.size) length)
      else none := by
  have hoverlap := policy.overlap_lt
  revert i
  refine windows_induction (motive := fun start list => ∀ i, list[i]? =
    if i = 0 ∨ start + i * (policy.size - policy.overlap) + policy.overlap < length then
      some (start + i * (policy.size - policy.overlap),
        min (start + i * (policy.size - policy.overlap) + policy.size) length)
    else none) ?_ ?_ hstart
  · intro start _ hstop i
    rw [windowEnd_noBreaks] at hstop
    cases i with
    | zero => simp only [List.getElem?_cons_zero, true_or, ↓reduceIte, Nat.zero_mul, Nat.add_zero, hstop]
    | succ i =>
      have hmul : (i + 1) * (policy.size - policy.overlap) =
          i * (policy.size - policy.overlap) + (policy.size - policy.overlap) := Nat.succ_mul ..
      rw [List.getElem?_cons_succ, List.getElem?_nil, if_neg (by omega)]
  · intro start stop hlt hbound hstop ih i
    have hnext : nextStart policy start stop = start + (policy.size - policy.overlap) := by
      rw [← hstop] at hbound ⊢
      exact nextStart_noBreaks hbound
    rw [windowEnd_noBreaks] at hstop
    cases i with
    | zero => simp only [List.getElem?_cons_zero, true_or, ↓reduceIte, Nat.zero_mul, Nat.add_zero, hstop]
    | succ i =>
      have hmul : start + (policy.size - policy.overlap) + i * (policy.size - policy.overlap) =
          start + (i + 1) * (policy.size - policy.overlap) := by
        rw [Nat.succ_mul]
        omega
      rw [List.getElem?_cons_succ, ih i, hnext, hmul]
      refine if_congr ?_ rfl rfl
      -- The first of the remaining windows exists because this one is not the last.
      constructor
      · rintro (rfl | h)
        · omega
        · exact Or.inr h
      · rintro (h | h)
        · omega
        · exact Or.inr h

variable {α : Type*}

/-- What a window holds of a list. -/
def windowOf (items : List α) (window : ℕ × ℕ) : List α := items.extract window.1 window.2

theorem length_windowOf (items : List α) (window : ℕ × ℕ) (h : window.2 ≤ items.length) :
    (windowOf items window).length = window.2 - window.1 := by
  simp only [windowOf, List.extract_eq_take_drop, List.length_take, List.length_drop]
  omega

theorem windowOf_append_drop (items : List α) {start stop : ℕ} (h : start ≤ stop) :
    windowOf items (start, stop) ++ items.drop stop = items.drop start := by
  have hdrop : items.drop stop = (items.drop start).drop (stop - start) := by
    rw [List.drop_drop, Nat.add_sub_cancel' h]
  rw [windowOf, List.extract_eq_take_drop, hdrop, List.take_append_drop]

variable (policy) in
/-- The first window and what the later ones add behind their overlap are the list. -/
theorem windows_reassemble (items : List α) (hstart : start < items.length) :
    ∃ first rest, windowsFrom policy [] items.length start = first :: rest ∧
      windowOf items first ++ rest.flatMap (fun window => (windowOf items window).drop policy.overlap) =
        items.drop start := by
  have hoverlap := policy.overlap_lt
  refine windows_induction (motive := fun start list => ∃ first rest, list = first :: rest ∧
    windowOf items first ++ rest.flatMap (fun window => (windowOf items window).drop policy.overlap) =
      items.drop start) ?_ ?_ hstart
  · intro start hstart _
    refine ⟨_, [], rfl, ?_⟩
    have hend := windowOf_append_drop items hstart.le
    rw [List.drop_length, List.append_nil] at hend
    rw [List.flatMap_nil, List.append_nil, hend]
  · intro start stop hlt hbound hstop ih
    obtain ⟨second, rest, hrest, hsuffix⟩ := ih
    refine ⟨_, _, rfl, ?_⟩
    have hnext : nextStart policy start stop = stop - policy.overlap := by
      rw [windowEnd_noBreaks] at hstop
      exact nextStart_long (by omega)
    have hfull : start + policy.size = stop := by
      rw [windowEnd_noBreaks] at hstop
      omega
    have hlater : nextStart policy start stop < items.length := by omega
    obtain ⟨rest', hhead⟩ := head_windowsFrom policy [] hlater
    obtain ⟨rfl, rfl⟩ := List.cons.inj (hrest.symm.trans hhead)
    have hlong : policy.overlap ≤ (windowOf items (nextStart policy start stop,
        windowEnd policy [] items.length (nextStart policy start stop))).length := by
      rw [length_windowOf _ _ (windowEnd_le ..), windowEnd_noBreaks]
      omega
    rw [hrest, List.flatMap_cons, ← List.drop_append_of_le_length hlong, hsuffix, List.drop_drop,
      show nextStart policy start stop + policy.overlap = stop by omega]
    exact windowOf_append_drop items hlt.le

end NoBreaks

end Ketebe.Lib.SlidingWindows
