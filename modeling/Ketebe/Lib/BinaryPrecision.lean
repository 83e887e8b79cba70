import Mathlib.Algebra.Order.Field.Power
import Mathlib.Algebra.Order.Field.Rat
import Mathlib.Data.Nat.Log
import Mathlib.Tactic.Positivity

/-!
Natural numbers with few significant bits: a significand of bounded length followed by
zeros. They are the integers that a binary floating-point format with that precision holds
without rounding.
-/
namespace Ketebe.Lib.BinaryPrecision

def SignificantBits (precision n : ℕ) : Prop :=
  ∃ significand exponent, significand < 2 ^ precision ∧ n = significand * 2 ^ exponent

variable {precision n significand exponent : ℕ}

theorem significantBits_of_lt (h : n < 2 ^ precision) : SignificantBits precision n :=
  ⟨n, 0, h, by rw [pow_zero, mul_one]⟩

theorem log2_mul_two_pow (h : significand ≠ 0) :
    (significand * 2 ^ exponent).log2 = significand.log2 + exponent := by
  have hpos : 0 < 2 ^ exponent := Nat.two_pow_pos exponent
  have hne : significand * 2 ^ exponent ≠ 0 := Nat.mul_ne_zero h hpos.ne'
  refine (Nat.log2_eq_iff hne).mpr ⟨?_, ?_⟩
  · rw [pow_add]
    exact Nat.mul_le_mul_right _ (Nat.log2_self_le h)
  · rw [Nat.add_right_comm, pow_add]
    exact Nat.mul_lt_mul_of_pos_right Nat.lt_log2_self hpos

/-- A number has few significant bits exactly when it ends with zeros behind them. -/
theorem significantBits_iff_dvd (hn : n ≠ 0) :
    SignificantBits precision n ↔ 2 ^ (n.log2 + 1 - precision) ∣ n := by
  constructor
  · rintro ⟨significand, exponent, hlt, rfl⟩
    have hsignificand : significand ≠ 0 := fun hzero => hn (by rw [hzero, zero_mul])
    have hbits : significand.log2 < precision := (Nat.log2_lt hsignificand).mpr hlt
    rw [log2_mul_two_pow hsignificand]
    exact (pow_dvd_pow 2 (by omega)).trans (Dvd.intro_left significand rfl)
  · rintro ⟨quotient, hquotient⟩
    refine ⟨quotient, n.log2 + 1 - precision, ?_, by rw [mul_comm]; exact hquotient⟩
    have hlt : n < 2 ^ (n.log2 + 1) := Nat.lt_log2_self
    by_cases hshort : n.log2 + 1 ≤ precision
    · rw [Nat.sub_eq_zero_of_le hshort, pow_zero, one_mul] at hquotient
      exact hquotient ▸ hlt.trans_le (Nat.pow_le_pow_right Nat.two_pos hshort)
    · have hsplit : 2 ^ (n.log2 + 1) = 2 ^ (n.log2 + 1 - precision) * 2 ^ precision := by
        rw [← pow_add]
        congr 1
        omega
      rw [hsplit] at hlt
      nth_rewrite 1 [hquotient] at hlt
      exact Nat.lt_of_mul_lt_mul_left hlt

/-- Only a number with few significant bits is a short significand times a power of two. -/
theorem significantBits_of_eq {power : ℤ} (hsignificand : significand < 2 ^ precision)
    (h : (n : ℚ) = significand * 2 ^ power) : SignificantBits precision n := by
  rcases le_or_gt 0 power with hpower | hpower
  · obtain ⟨exponent, rfl⟩ := Int.eq_ofNat_of_zero_le hpower
    refine ⟨significand, exponent, hsignificand, ?_⟩
    rw [zpow_natCast] at h
    exact_mod_cast h
  · -- A negative power only shrinks the significand.
    have hle : (n : ℚ) ≤ significand := by
      rw [h]
      exact mul_le_of_le_one_right (Nat.cast_nonneg _)
        (zpow_le_one_of_nonpos₀ one_le_two hpower.le)
    exact significantBits_of_lt ((Nat.cast_le.mp hle).trans_lt hsignificand)

end Ketebe.Lib.BinaryPrecision
