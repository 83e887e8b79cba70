import Ketebe.Collection
import Mathlib.Algebra.BigOperators.Group.List.Basic
import Mathlib.Algebra.Order.Field.Rat
import Mathlib.Analysis.Real.Sqrt

/-!
Similarity scores. The formulas are written over any arithmetic with a total
order, so that what does not depend on rounding is proved for all of them. The
real numbers are the arithmetic without rounding.
-/
namespace Ketebe

/-- What the scores need of floating-point numbers. The order is `total_cmp`;
`lessThan` and `isZero` are the comparisons `<` and `== 0.0`. -/
class ScoreArith (S : Type) extends LinearOrder S where
  ofF32 : F32 → S
  zero : S
  add : S → S → S
  sub : S → S → S
  mul : S → S → S
  div : S → S → S
  neg : S → S
  sqrt : S → S
  isZero : S → Bool
  lessThan : S → S → Bool
  lt_of_lessThan : ∀ {a b : S}, lessThan a b → a < b

section Formulas

variable {S : Type} [ScoreArith S]

def sum (terms : List S) : S := terms.foldl ScoreArith.add ScoreArith.zero

def dot (left right : List F32) : S :=
  sum (List.zipWith (fun a b => ScoreArith.mul (ScoreArith.ofF32 a) (ScoreArith.ofF32 b)) left right)

def l2 (left right : List F32) : S :=
  ScoreArith.sqrt (sum (List.zipWith (fun a b =>
    let delta := ScoreArith.sub (ScoreArith.ofF32 a) (ScoreArith.ofF32 b)
    ScoreArith.mul delta delta) left right))

def norm (vector : List F32) : S :=
  ScoreArith.sqrt (sum (vector.map fun value =>
    ScoreArith.mul (ScoreArith.ofF32 value) (ScoreArith.ofF32 value)))

/-- The comparison `norm(vector) == 0.0`. -/
def hasZeroNorm (S : Type) [ScoreArith S] (vector : List F32) : Bool :=
  ScoreArith.isZero (norm vector : S)

/-- `None` stands for the error of a zero norm. -/
def cosine (left right : List F32) : Option S :=
  let leftNorm : S := norm left
  let rightNorm : S := norm right
  if ScoreArith.isZero leftNorm || ScoreArith.isZero rightNorm then none
  else some (ScoreArith.div (dot left right) (ScoreArith.mul leftNorm rightNorm))

theorem cosine_eq_none_iff {left right : List F32} :
    (cosine left right : Option S) = none ↔ hasZeroNorm S left ∨ hasZeroNorm S right := by
  simp only [cosine, hasZeroNorm, ite_eq_left_iff, reduceCtorEq, imp_false, not_not,
    Bool.or_eq_true]

/-- Scores in the order of the metric, the best first, and equal ones by record id. -/
def compareScoreAndId (metric : DistanceMetric) (leftScore : S) (leftId : RecordId)
    (rightScore : S) (rightId : RecordId) : Ordering :=
  (match metric with
    | .l2 => compare leftScore rightScore
    | .cosine | .dot => compare rightScore leftScore).then (compare leftId rightId)

end Formulas

/-! ### Exact arithmetic -/

namespace F32

/-- The value of a finite float. -/
def toRat (value : F32) : ℚ :=
  let sign : ℚ := if value.bits.toNat < 2 ^ 31 then 1 else -1
  let exponent : ℕ := value.bits.toNat / 2 ^ 23 % 2 ^ 8
  let mantissa : ℕ := value.bits.toNat % 2 ^ 23
  if exponent = 0 then sign * mantissa * 2 ^ (-149 : ℤ)
  else sign * (2 ^ 23 + mantissa) * 2 ^ ((exponent : ℤ) - 150)

/-- Both zeros: all bits but the sign are clear. -/
def isZero (value : F32) : Bool := value.bits.toNat % 2 ^ 31 = 0

theorem toRat_eq_zero_iff (value : F32) : value.toRat = 0 ↔ value.isZero := by
  have hsign : (if value.bits.toNat < 2 ^ 31 then (1 : ℚ) else -1) ≠ 0 := by
    split <;> norm_num
  have hscale (exponent : ℤ) : (2 : ℚ) ^ exponent ≠ 0 := zpow_ne_zero _ two_ne_zero
  unfold toRat isZero
  simp only [decide_eq_true_eq]
  by_cases hexponent : value.bits.toNat / 2 ^ 23 % 2 ^ 8 = 0
  · rw [if_pos hexponent]
    simp only [mul_eq_zero, hsign, hscale, false_or, or_false, Nat.cast_eq_zero]
    omega
  · rw [if_neg hexponent]
    have hmantissa : (2 ^ 23 + (value.bits.toNat % 2 ^ 23 : ℕ) : ℚ) ≠ 0 := by positivity
    simp only [mul_eq_zero, hsign, hscale, hmantissa, or_self, false_iff]
    omega

end F32

/-- Real arithmetic: every operation is exact. -/
noncomputable instance : ScoreArith ℝ where
  ofF32 value := (value.toRat : ℝ)
  zero := 0
  add := (· + ·)
  sub := (· - ·)
  mul := (· * ·)
  div := (· / ·)
  neg := (- ·)
  sqrt := Real.sqrt
  isZero value := decide (value = 0)
  lessThan a b := decide (a < b)
  lt_of_lessThan h := of_decide_eq_true h

theorem sum_real (terms : List ℝ) : sum terms = terms.sum := by
  rw [List.sum_eq_foldl]
  rfl

theorem sum_mul_self_eq_zero {terms : List ℝ} :
    (terms.map fun term => term * term).sum = 0 ↔ ∀ term ∈ terms, term = 0 := by
  induction terms with
  | nil => simp
  | cons head rest ih =>
    have hrest : 0 ≤ (rest.map fun term => term * term).sum :=
      List.sum_nonneg fun term hterm => by
        obtain ⟨value, -, rfl⟩ := List.mem_map.mp hterm
        exact mul_self_nonneg value
    rw [List.map_cons, List.sum_cons, List.forall_mem_cons, ← ih,
      add_eq_zero_iff_of_nonneg (mul_self_nonneg head) hrest, mul_self_eq_zero]

/-- Without rounding only the zero vector has norm zero. -/
theorem hasZeroNorm_real (vector : List F32) :
    hasZeroNorm ℝ vector ↔ ∀ value ∈ vector, value.isZero := by
  have hnonneg : 0 ≤ ((vector.map fun value : F32 => ((value.toRat : ℚ) : ℝ)).map
      fun term => term * term).sum :=
    List.sum_nonneg fun term hterm => by
      obtain ⟨value, -, rfl⟩ := List.mem_map.mp hterm
      exact mul_self_nonneg value
  have hnorm : (norm vector : ℝ) = Real.sqrt ((vector.map fun value : F32 =>
      ((value.toRat : ℚ) : ℝ)).map fun term => term * term).sum := by
    rw [List.map_map, ← sum_real]
    rfl
  have hzero : hasZeroNorm ℝ vector ↔ (norm vector : ℝ) = 0 := decide_eq_true_iff
  rw [hzero, hnorm, Real.sqrt_eq_zero hnonneg, sum_mul_self_eq_zero, List.forall_mem_map]
  simp only [Rat.cast_eq_zero, F32.toRat_eq_zero_iff]

end Ketebe
