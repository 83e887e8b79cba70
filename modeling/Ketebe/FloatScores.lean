import Ketebe.Score
import Ketebe.TokenChunking

/-!
The machine's own arithmetic: single precision with rounding to nearest, two zeros,
infinities and NaN. The order is that of `total_cmp`, which tells the zeros apart; the
comparison `<` does not.
-/
namespace Ketebe

namespace F32

theorem totalKey_eq (value : F32) : value.totalKey =
    if value.bits.toNat < 2 ^ 31 then (value.bits.toNat : ℤ)
    else 2 ^ 31 - 1 - (value.bits.toNat : ℤ) := by
  rw [totalKey]
  exact if_congr UInt32.lt_iff_toNat_lt rfl rfl

theorem totalKey_injective : Function.Injective totalKey := by
  intro left right h
  have hbits : left.bits.toNat = right.bits.toNat := by
    rw [totalKey_eq, totalKey_eq] at h
    split at h <;> split at h <;> omega
  exact congrArg F32.mk (UInt32.toNat_inj.mp hbits)

theorem totalKey_lt_of_lessThan {left right : F32} (h : left.lessThan right) :
    left.totalKey < right.totalKey := by
  have hleft := left.bits.toNat_lt
  have hright := right.bits.toNat_lt
  have hkeys : left.signedKey < right.signedKey := by
    simp only [lessThan, Bool.and_eq_true, decide_eq_true_eq] at h
    exact h.2
  rw [totalKey_eq, totalKey_eq]
  simp only [signedKey, magnitude] at hkeys
  split at hkeys <;> split at hkeys <;> split <;> split <;> omega

/-- The comparison misses the order of the two zeros and that of NaNs only. -/
theorem lessThan_of_totalKey_lt {left right : F32} (h : left.totalKey < right.totalKey)
    (hleft : left.isNan = false) (hright : right.isNan = false)
    (hzeros : ¬(left.isZero ∧ right.isZero)) : left.lessThan right := by
  have hbits := left.bits.toNat_lt
  have hbits' := right.bits.toNat_lt
  rw [totalKey_eq, totalKey_eq] at h
  simp only [isZero, decide_eq_true_eq] at hzeros
  have hkeys : left.signedKey < right.signedKey := by
    simp only [signedKey, magnitude]
    split at h <;> split at h <;> split <;> split <;> omega
  simp only [lessThan, hleft, hright, hkeys, Bool.not_false, Bool.and_self, decide_true]

/-- The value with the canonical NaN in place of the others. -/
def model (value : F32) : Float32.Model := Float32.Model.ofBits value.bits

def ofModel (value : Float32.Model) : F32 := ⟨value.toBits⟩

def negZero : F32 := ⟨0x80000000⟩

end F32

/-- Sums of floats start from negative zero. -/
instance : ScoreArith F32 where
  toLinearOrder := LinearOrder.lift' F32.totalKey F32.totalKey_injective
  ofF32 value := value
  zero := F32.negZero
  add left right := .ofModel (left.model.add right.model)
  sub left right := .ofModel (left.model.sub right.model)
  mul left right := .ofModel (left.model.mul right.model)
  div left right := .ofModel (left.model.div right.model)
  neg value := .ofModel value.model.neg
  sqrt value := .ofModel value.model.sqrt
  isZero := F32.isZero
  lessThan := F32.lessThan
  lt_of_lessThan := F32.totalKey_lt_of_lessThan

/-- A cosine that underflows to negative zero. -/
example : (cosine [⟨0x3f800000⟩, ⟨0⟩] [⟨0x80000001⟩, ⟨0x40800000⟩] : Option F32) =
    some F32.negZero := by decide +kernel

end Ketebe
