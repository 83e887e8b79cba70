import Ketebe.DocumentChunks
import Ketebe.Lib.BinaryPrecision
import Ketebe.Predicate

/-!
Doubles as the images of 64-bit integers. An integer is rounded to 53 significant bits, and
kept exactly when it has no more.
-/
namespace Ketebe

open Lib.BinaryPrecision

namespace F64

def isFinite (value : F64) : Bool := value.bits.toNat / 2 ^ 52 % 2 ^ 11 != 2047

/-- The value of a finite float. -/
def toRat (value : F64) : ℚ :=
  let sign : ℚ := if value.isNegative then -1 else 1
  let exponent : ℕ := value.bits.toNat / 2 ^ 52 % 2 ^ 11
  let mantissa : ℕ := value.bits.toNat % 2 ^ 52
  if exponent = 0 then sign * mantissa * 2 ^ (-1074 : ℤ)
  else sign * (2 ^ 52 + mantissa : ℕ) * 2 ^ ((exponent : ℤ) - 1075)

/-- `as f64` on `i64`. -/
def ofInt64 (value : Int64) : F64 :=
  let magnitude := ofUInt64 (UInt64.ofNat value.toInt.natAbs)
  if value.toInt < 0 then ⟨UInt64.ofNat (magnitude.bits.toNat + 2 ^ 63)⟩ else magnitude

/-- A float is a short significand with a sign times a power of two. -/
theorem toRat_cases (value : F64) : ∃ (significand : ℕ) (power : ℤ), significand < 2 ^ 53 ∧
    value.toRat = (if value.isNegative then -1 else 1) * significand * 2 ^ power := by
  have hmantissa : value.bits.toNat % 2 ^ 52 < 2 ^ 52 := Nat.mod_lt _ (Nat.two_pow_pos 52)
  simp only [toRat]
  split
  · exact ⟨_, _, by omega, rfl⟩
  · exact ⟨_, _, by omega, rfl⟩

/-- An integer that a float represents has at most 53 significant bits. -/
theorem significantBits_of_toRat {value : F64} {n : ℤ} (h : value.toRat = n) :
    SignificantBits 53 n.natAbs := by
  obtain ⟨significand, power, hlt, hvalue⟩ := value.toRat_cases
  have hscale : (0 : ℚ) ≤ significand * 2 ^ power := by positivity
  refine significantBits_of_eq hlt (?_ : ((n.natAbs : ℕ) : ℚ) = significand * 2 ^ power)
  rw [Nat.cast_natAbs, Int.cast_abs, ← h, hvalue, mul_assoc, abs_mul, abs_of_nonneg hscale]
  split <;> simp only [abs_neg, abs_one, one_mul]

/-- The bits of a normal float. -/
theorem toRat_normal {value : F64} {exponent significand : ℕ} {negative : Bool}
    (hexponent : exponent ≤ 63) (hlow : 2 ^ 52 ≤ significand) (hhigh : significand ≤ 2 ^ 53)
    (hbits : value.bits.toNat =
      (exponent + 1022) * 2 ^ 52 + significand + if negative then 2 ^ 63 else 0) :
    value.isFinite ∧ (significand < 2 ^ 53 → value.toRat =
      (if negative then -1 else 1) * significand * 2 ^ ((exponent : ℤ) - 52)) := by
  have hnegative : value.isNegative = negative := by
    cases negative <;> simp only [isNegative, hbits, Bool.false_eq_true, if_true, if_false] <;>
      [apply decide_eq_false; apply decide_eq_true] <;> omega
  have hfield : value.bits.toNat / 2 ^ 52 % 2 ^ 11 = exponent + 1022 + significand / 2 ^ 52 := by
    cases negative <;> simp only [hbits, Bool.false_eq_true, if_true, if_false] <;> omega
  refine ⟨?_, fun hshort => ?_⟩
  · rw [isFinite, hfield, bne_iff_ne]
    omega
  · have hquotient : significand / 2 ^ 52 = 1 := by omega
    have hmantissa : value.bits.toNat % 2 ^ 52 = significand - 2 ^ 52 := by
      cases negative <;> simp only [hbits, Bool.false_eq_true, if_true, if_false] <;> omega
    have hpower : ((exponent + 1022 + 1 : ℕ) : ℤ) - 1075 = exponent - 52 := by
      push_cast
      ring
    simp only [toRat, hfield, hquotient, hmantissa, hnegative]
    rw [if_neg (by omega), Nat.add_sub_cancel' hlow, hpower]

theorem roundShift_le {value bits precision : ℕ} (h : value < 2 ^ (bits + precision)) :
    roundShift value bits ≤ 2 ^ precision := by
  have hquotient : value >>> bits < 2 ^ precision := by
    rw [Nat.shiftRight_eq_div_pow]
    exact Nat.div_lt_of_lt_mul (by rwa [← pow_add])
  simp only [roundShift]
  split <;> omega

theorem shiftRight_le_roundShift (value bits : ℕ) : value >>> bits ≤ roundShift value bits := by
  simp only [roundShift]
  split <;> omega

theorem roundShift_mul (quotient bits : ℕ) : roundShift (quotient * 2 ^ bits) bits = quotient := by
  have hpos := Nat.two_pow_pos bits
  have hquotient : (quotient * 2 ^ bits) >>> bits = quotient := by
    rw [Nat.shiftRight_eq_div_pow, Nat.mul_div_cancel _ hpos]
  simp only [roundShift, hquotient, Nat.mul_mod_left]
  exact if_neg (by omega)

/-- The significand of the leading 53 bits, rounded. -/
def leadingBits (value : UInt64) : ℕ :=
  if value.toNat.log2 ≤ 52 then value.toNat <<< (52 - value.toNat.log2)
  else roundShift value.toNat (value.toNat.log2 - 52)

theorem leadingBits_bounds {value : UInt64} (h : value.toNat ≠ 0) :
    2 ^ 52 ≤ leadingBits value ∧ leadingBits value ≤ 2 ^ 53 := by
  have hlow := Nat.log2_self_le h
  have hhigh : value.toNat < 2 ^ (value.toNat.log2 + 1) := Nat.lt_log2_self
  unfold leadingBits
  split
  · rename_i hshort
    rw [Nat.shiftLeft_eq]
    constructor
    · calc 2 ^ 52 = 2 ^ value.toNat.log2 * 2 ^ (52 - value.toNat.log2) := by
            rw [← pow_add, Nat.add_sub_cancel' hshort]
        _ ≤ _ := Nat.mul_le_mul_right _ hlow
    · calc _ ≤ 2 ^ (value.toNat.log2 + 1) * 2 ^ (52 - value.toNat.log2) :=
            Nat.mul_le_mul_right _ hhigh.le
        _ = 2 ^ 53 := by
            rw [← pow_add]
            congr 1
            omega
  · rename_i hlong
    constructor
    · refine le_trans ?_ (shiftRight_le_roundShift _ _)
      rw [Nat.shiftRight_eq_div_pow, Nat.le_div_iff_mul_le (Nat.two_pow_pos _), ← pow_add]
      exact le_trans (Nat.pow_le_pow_right Nat.two_pos (by omega)) hlow
    · apply roundShift_le
      exact hhigh.trans_le (Nat.pow_le_pow_right Nat.two_pos (by omega))

/-- Of a number with at most 53 significant bits nothing is rounded away. -/
theorem leadingBits_exact {value : UInt64} (h : value.toNat ≠ 0)
    (hbits : SignificantBits 53 value.toNat) : leadingBits value < 2 ^ 53 ∧
      (leadingBits value : ℚ) * 2 ^ ((value.toNat.log2 : ℤ) - 52) = value.toNat := by
  have hhigh : value.toNat < 2 ^ (value.toNat.log2 + 1) := Nat.lt_log2_self
  unfold leadingBits
  split
  · rename_i hshort
    rw [Nat.shiftLeft_eq]
    constructor
    · calc _ < 2 ^ (value.toNat.log2 + 1) * 2 ^ (52 - value.toNat.log2) :=
            Nat.mul_lt_mul_of_pos_right hhigh (Nat.two_pow_pos _)
        _ = 2 ^ 53 := by
            rw [← pow_add]
            congr 1
            omega
    · have hpower : ((value.toNat.log2 : ℤ) - 52) = -((52 - value.toNat.log2 : ℕ) : ℤ) := by omega
      rw [hpower, zpow_neg, zpow_natCast]
      push_cast
      rw [mul_assoc, mul_inv_cancel₀ (by positivity), mul_one]
  · rename_i hlong
    obtain ⟨shift, hshift⟩ : ∃ shift, value.toNat.log2 = shift + 52 :=
      ⟨value.toNat.log2 - 52, by omega⟩
    have hdvd := (significantBits_iff_dvd h).mp hbits
    rw [hshift, show shift + 52 + 1 - 53 = shift by omega] at hdvd
    rw [hshift, Nat.add_sub_cancel]
    obtain ⟨quotient, hquotient⟩ := hdvd
    rw [mul_comm] at hquotient
    rw [hshift, hquotient, show shift + 52 + 1 = 53 + shift by omega, pow_add] at hhigh
    rw [hquotient, roundShift_mul]
    refine ⟨Nat.lt_of_mul_lt_mul_right hhigh, ?_⟩
    rw [Nat.cast_add, Nat.cast_ofNat, add_sub_cancel_right, zpow_natCast]
    push_cast
    rfl

theorem ofUInt64_bits {value : UInt64} (h : value.toNat ≠ 0) :
    (ofUInt64 value).bits.toNat =
      (value.toNat.log2 + 1022) * 2 ^ 52 + leadingBits value + if false then 2 ^ 63 else 0 := by
  have hne : value ≠ 0 := fun hzero => h (by rw [hzero]; rfl)
  have hlog : value.toNat.log2 < 64 := (Nat.log2_lt h).mpr value.toNat_lt
  have hbounds := leadingBits_bounds h
  have hbits : (ofUInt64 value).bits =
      UInt64.ofNat ((value.toNat.log2 + 1022) * 2 ^ 52 + leadingBits value) :=
    congrArg F64.bits (if_neg hne)
  have hsize : (value.toNat.log2 + 1022) * 2 ^ 52 + leadingBits value < 2 ^ 64 := by omega
  rw [hbits, UInt64.toNat_ofNat_of_lt' hsize]
  simp only [Bool.false_eq_true, if_false, Nat.add_zero]

theorem ofUInt64_isFinite (value : UInt64) : (ofUInt64 value).isFinite := by
  by_cases hzero : value.toNat = 0
  · have hvalue : value = 0 := UInt64.toNat_inj.mp hzero
    rw [hvalue]
    decide
  · have hlog : value.toNat.log2 < 64 := (Nat.log2_lt hzero).mpr value.toNat_lt
    obtain ⟨hlow, hhigh⟩ := leadingBits_bounds hzero
    exact (toRat_normal (by omega) hlow hhigh (ofUInt64_bits hzero)).1

theorem ofUInt64_toRat {value : UInt64} (h : SignificantBits 53 value.toNat) :
    (ofUInt64 value).toRat = value.toNat := by
  by_cases hzero : value.toNat = 0
  · have hvalue : value = 0 := UInt64.toNat_inj.mp hzero
    have hbits : (ofUInt64 0).bits.toNat = 0 := by decide
    rw [hvalue, toRat, hbits]
    simp only [Nat.zero_div, Nat.zero_mod, if_true, Nat.cast_zero, mul_zero, zero_mul,
      UInt64.toNat_zero]
  · have hlog : value.toNat.log2 < 64 := (Nat.log2_lt hzero).mpr value.toNat_lt
    obtain ⟨hlow, hhigh⟩ := leadingBits_bounds hzero
    obtain ⟨hshort, hvalue⟩ := leadingBits_exact hzero h
    rw [(toRat_normal (by omega) hlow hhigh (ofUInt64_bits hzero)).2 hshort, ← hvalue]
    simp only [Bool.false_eq_true, if_false, one_mul]

/-- A negative integer is its magnitude with the sign bit. -/
theorem ofInt64_negative {value : Int64} (h : value.toInt < 0) :
    (ofInt64 value).isFinite ∧ (SignificantBits 53 value.toInt.natAbs →
      (ofInt64 value).toRat = value.toInt) := by
  have hrange := value.le_toInt
  set magnitude := UInt64.ofNat value.toInt.natAbs with hmagnitude
  have hsize : value.toInt.natAbs < 2 ^ 64 := by omega
  have hnat : magnitude.toNat = value.toInt.natAbs := UInt64.toNat_ofNat_of_lt' hsize
  have hne : magnitude.toNat ≠ 0 := by omega
  have hlog : magnitude.toNat.log2 < 64 := (Nat.log2_lt hne).mpr magnitude.toNat_lt
  obtain ⟨hlow, hhigh⟩ := leadingBits_bounds hne
  have hplain := ofUInt64_bits hne
  have hbits : (ofInt64 value).bits.toNat = (magnitude.toNat.log2 + 1022) * 2 ^ 52 +
      leadingBits magnitude + if true then 2 ^ 63 else 0 := by
    simp only [Bool.false_eq_true, if_false, Nat.add_zero] at hplain
    have hsum : (ofUInt64 magnitude).bits.toNat + 2 ^ 63 < 2 ^ 64 := by omega
    have hsign : (ofInt64 value).bits = UInt64.ofNat ((ofUInt64 magnitude).bits.toNat + 2 ^ 63) :=
      congrArg F64.bits (if_pos h)
    rw [hsign, UInt64.toNat_ofNat_of_lt' hsum, hplain, if_pos rfl]
  obtain ⟨hfinite, hexact⟩ := toRat_normal (by omega) hlow hhigh hbits
  refine ⟨hfinite, fun hfew => ?_⟩
  rw [← hnat] at hfew
  obtain ⟨hshort, hvalue⟩ := leadingBits_exact hne hfew
  have hinteger : ((value.toInt.natAbs : ℕ) : ℚ) = -(value.toInt : ℚ) := by
    rw [Nat.cast_natAbs, abs_of_neg h, Int.cast_neg]
  rw [hexact hshort, if_pos rfl, mul_assoc, hvalue, hnat, hinteger, neg_one_mul, neg_neg]

/-- Integers below `2 ^ 53` are told apart. -/
theorem ofUInt64_inj {first second : UInt64} (hfirst : first.toNat < 2 ^ 53)
    (hsecond : second.toNat < 2 ^ 53) (h : ofUInt64 first = ofUInt64 second) : first = second := by
  have hvalue : (first.toNat : ℚ) = second.toNat := by
    rw [← ofUInt64_toRat (significantBits_of_lt hfirst),
      ← ofUInt64_toRat (significantBits_of_lt hsecond), h]
  exact UInt64.toNat_inj.mp (Nat.cast_injective hvalue)

theorem ofUInt64_bits_lt (value : UInt64) : (ofUInt64 value).bits.toNat < 0x7ff0000000000000 := by
  by_cases hzero : value.toNat = 0
  · have hvalue : value = 0 := UInt64.toNat_inj.mp hzero
    rw [hvalue]
    decide
  · have hlog : value.toNat.log2 < 64 := (Nat.log2_lt hzero).mpr value.toNat_lt
    have hbounds := leadingBits_bounds hzero
    rw [ofUInt64_bits hzero]
    simp only [Bool.false_eq_true, if_false]
    omega

/-- The `==` of two converted integers. -/
theorem eqIeee_ofUInt64 {first second : UInt64} (hfirst : first.toNat < 2 ^ 53)
    (hsecond : second.toNat < 2 ^ 53) :
    (ofUInt64 first).eqIeee (ofUInt64 second) ↔ first = second := by
  have hleft := ofUInt64_bits_lt first
  have hright := ofUInt64_bits_lt second
  have hkey (value : F64) (h : value.bits.toNat < 0x7ff0000000000000) :
      value.isNan = false ∧ value.signedKey = value.bits.toNat := by
    have hmagnitude : value.magnitude = value.bits.toNat := Nat.mod_eq_of_lt (by omega)
    have hpositive : value.isNegative = false := decide_eq_false (by omega)
    rw [isNan, signedKey, hmagnitude, hpositive]
    exact ⟨decide_eq_false (by omega), rfl⟩
  rw [eqIeee, partialCmp, (hkey _ hleft).1, (hkey _ hright).1, (hkey _ hleft).2,
    (hkey _ hright).2, Bool.or_self, if_neg Bool.false_ne_true, beq_iff_eq, Option.some.injEq,
    compare_eq_iff_eq, Nat.cast_inj]
  constructor
  · intro h
    exact ofUInt64_inj hfirst hsecond (congrArg F64.mk (UInt64.toNat_inj.mp h))
  · rintro rfl
    rfl

end F64

end Ketebe
