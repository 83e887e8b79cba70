import Mathlib.Data.Char
import Mathlib.Data.List.Forall2

/-!
Lower case, character by character, as Unicode maps it. One character becomes two, the
final form of sigma depends on its surroundings, and the UTF-8 length may change. Whatever
the mapping does, an ASCII letter or sign comes from its own upper or lower case, except
that the Kelvin sign becomes a k and the dotted capital I an i before a combining dot.
-/
namespace Ketebe

/-- Characters from `first` to `last`, `step` apart, that map to those from `target` on. -/
structure CaseRange where
  first : ℕ
  last : ℕ
  step : ℕ
  target : ℕ
  deriving DecidableEq

namespace CaseRange

def covers (range : CaseRange) (code : ℕ) : Bool :=
  range.first ≤ code && code ≤ range.last && (code - range.first) % range.step == 0

def lower (range : CaseRange) (code : ℕ) : Char := Char.ofNat (range.target + (code - range.first))

end CaseRange

/-- The simple lower-case mappings of Unicode 17. -/
def lowercaseTable : List CaseRange :=
  [⟨0x41, 0x5a, 1, 0x61⟩, ⟨0xc0, 0xd6, 1, 0xe0⟩, ⟨0xd8, 0xde, 1, 0xf8⟩, ⟨0x100, 0x12e, 2, 0x101⟩,
   ⟨0x132, 0x136, 2, 0x133⟩, ⟨0x139, 0x147, 2, 0x13a⟩, ⟨0x14a, 0x176, 2, 0x14b⟩,
   ⟨0x178, 0x178, 1, 0xff⟩, ⟨0x179, 0x17d, 2, 0x17a⟩, ⟨0x181, 0x181, 1, 0x253⟩,
   ⟨0x182, 0x184, 2, 0x183⟩, ⟨0x186, 0x186, 1, 0x254⟩, ⟨0x187, 0x187, 1, 0x188⟩,
   ⟨0x189, 0x18a, 1, 0x256⟩, ⟨0x18b, 0x18b, 1, 0x18c⟩, ⟨0x18e, 0x18e, 1, 0x1dd⟩,
   ⟨0x18f, 0x18f, 1, 0x259⟩, ⟨0x190, 0x190, 1, 0x25b⟩, ⟨0x191, 0x191, 1, 0x192⟩,
   ⟨0x193, 0x193, 1, 0x260⟩, ⟨0x194, 0x194, 1, 0x263⟩, ⟨0x196, 0x196, 1, 0x269⟩,
   ⟨0x197, 0x197, 1, 0x268⟩, ⟨0x198, 0x198, 1, 0x199⟩, ⟨0x19c, 0x19c, 1, 0x26f⟩,
   ⟨0x19d, 0x19d, 1, 0x272⟩, ⟨0x19f, 0x19f, 1, 0x275⟩, ⟨0x1a0, 0x1a4, 2, 0x1a1⟩,
   ⟨0x1a6, 0x1a6, 1, 0x280⟩, ⟨0x1a7, 0x1a7, 1, 0x1a8⟩, ⟨0x1a9, 0x1a9, 1, 0x283⟩,
   ⟨0x1ac, 0x1ac, 1, 0x1ad⟩, ⟨0x1ae, 0x1ae, 1, 0x288⟩, ⟨0x1af, 0x1af, 1, 0x1b0⟩,
   ⟨0x1b1, 0x1b2, 1, 0x28a⟩, ⟨0x1b3, 0x1b5, 2, 0x1b4⟩, ⟨0x1b7, 0x1b7, 1, 0x292⟩,
   ⟨0x1b8, 0x1b8, 1, 0x1b9⟩, ⟨0x1bc, 0x1bc, 1, 0x1bd⟩, ⟨0x1c4, 0x1c4, 1, 0x1c6⟩,
   ⟨0x1c5, 0x1c5, 1, 0x1c6⟩, ⟨0x1c7, 0x1c7, 1, 0x1c9⟩, ⟨0x1c8, 0x1c8, 1, 0x1c9⟩,
   ⟨0x1ca, 0x1ca, 1, 0x1cc⟩, ⟨0x1cb, 0x1db, 2, 0x1cc⟩, ⟨0x1de, 0x1ee, 2, 0x1df⟩,
   ⟨0x1f1, 0x1f1, 1, 0x1f3⟩, ⟨0x1f2, 0x1f4, 2, 0x1f3⟩, ⟨0x1f6, 0x1f6, 1, 0x195⟩,
   ⟨0x1f7, 0x1f7, 1, 0x1bf⟩, ⟨0x1f8, 0x21e, 2, 0x1f9⟩, ⟨0x220, 0x220, 1, 0x19e⟩,
   ⟨0x222, 0x232, 2, 0x223⟩, ⟨0x23a, 0x23a, 1, 0x2c65⟩, ⟨0x23b, 0x23b, 1, 0x23c⟩,
   ⟨0x23d, 0x23d, 1, 0x19a⟩, ⟨0x23e, 0x23e, 1, 0x2c66⟩, ⟨0x241, 0x241, 1, 0x242⟩,
   ⟨0x243, 0x243, 1, 0x180⟩, ⟨0x244, 0x244, 1, 0x289⟩, ⟨0x245, 0x245, 1, 0x28c⟩,
   ⟨0x246, 0x24e, 2, 0x247⟩, ⟨0x370, 0x372, 2, 0x371⟩, ⟨0x376, 0x376, 1, 0x377⟩,
   ⟨0x37f, 0x37f, 1, 0x3f3⟩, ⟨0x386, 0x386, 1, 0x3ac⟩, ⟨0x388, 0x38a, 1, 0x3ad⟩,
   ⟨0x38c, 0x38c, 1, 0x3cc⟩, ⟨0x38e, 0x38f, 1, 0x3cd⟩, ⟨0x391, 0x3a1, 1, 0x3b1⟩,
   ⟨0x3a3, 0x3ab, 1, 0x3c3⟩, ⟨0x3cf, 0x3cf, 1, 0x3d7⟩, ⟨0x3d8, 0x3ee, 2, 0x3d9⟩,
   ⟨0x3f4, 0x3f4, 1, 0x3b8⟩, ⟨0x3f7, 0x3f7, 1, 0x3f8⟩, ⟨0x3f9, 0x3f9, 1, 0x3f2⟩,
   ⟨0x3fa, 0x3fa, 1, 0x3fb⟩, ⟨0x3fd, 0x3ff, 1, 0x37b⟩, ⟨0x400, 0x40f, 1, 0x450⟩,
   ⟨0x410, 0x42f, 1, 0x430⟩, ⟨0x460, 0x480, 2, 0x461⟩, ⟨0x48a, 0x4be, 2, 0x48b⟩,
   ⟨0x4c0, 0x4c0, 1, 0x4cf⟩, ⟨0x4c1, 0x4cd, 2, 0x4c2⟩, ⟨0x4d0, 0x52e, 2, 0x4d1⟩,
   ⟨0x531, 0x556, 1, 0x561⟩, ⟨0x10a0, 0x10c5, 1, 0x2d00⟩, ⟨0x10c7, 0x10c7, 1, 0x2d27⟩,
   ⟨0x10cd, 0x10cd, 1, 0x2d2d⟩, ⟨0x13a0, 0x13ef, 1, 0xab70⟩, ⟨0x13f0, 0x13f5, 1, 0x13f8⟩,
   ⟨0x1c89, 0x1c89, 1, 0x1c8a⟩, ⟨0x1c90, 0x1cba, 1, 0x10d0⟩, ⟨0x1cbd, 0x1cbf, 1, 0x10fd⟩,
   ⟨0x1e00, 0x1e94, 2, 0x1e01⟩, ⟨0x1e9e, 0x1e9e, 1, 0xdf⟩, ⟨0x1ea0, 0x1efe, 2, 0x1ea1⟩,
   ⟨0x1f08, 0x1f0f, 1, 0x1f00⟩, ⟨0x1f18, 0x1f1d, 1, 0x1f10⟩, ⟨0x1f28, 0x1f2f, 1, 0x1f20⟩,
   ⟨0x1f38, 0x1f3f, 1, 0x1f30⟩, ⟨0x1f48, 0x1f4d, 1, 0x1f40⟩, ⟨0x1f59, 0x1f5f, 2, 0x1f51⟩,
   ⟨0x1f68, 0x1f6f, 1, 0x1f60⟩, ⟨0x1f88, 0x1f8f, 1, 0x1f80⟩, ⟨0x1f98, 0x1f9f, 1, 0x1f90⟩,
   ⟨0x1fa8, 0x1faf, 1, 0x1fa0⟩, ⟨0x1fb8, 0x1fb9, 1, 0x1fb0⟩, ⟨0x1fba, 0x1fbb, 1, 0x1f70⟩,
   ⟨0x1fbc, 0x1fbc, 1, 0x1fb3⟩, ⟨0x1fc8, 0x1fcb, 1, 0x1f72⟩, ⟨0x1fcc, 0x1fcc, 1, 0x1fc3⟩,
   ⟨0x1fd8, 0x1fd9, 1, 0x1fd0⟩, ⟨0x1fda, 0x1fdb, 1, 0x1f76⟩, ⟨0x1fe8, 0x1fe9, 1, 0x1fe0⟩,
   ⟨0x1fea, 0x1feb, 1, 0x1f7a⟩, ⟨0x1fec, 0x1fec, 1, 0x1fe5⟩, ⟨0x1ff8, 0x1ff9, 1, 0x1f78⟩,
   ⟨0x1ffa, 0x1ffb, 1, 0x1f7c⟩, ⟨0x1ffc, 0x1ffc, 1, 0x1ff3⟩, ⟨0x2126, 0x2126, 1, 0x3c9⟩,
   ⟨0x212a, 0x212a, 1, 0x6b⟩, ⟨0x212b, 0x212b, 1, 0xe5⟩, ⟨0x2132, 0x2132, 1, 0x214e⟩,
   ⟨0x2160, 0x216f, 1, 0x2170⟩, ⟨0x2183, 0x2183, 1, 0x2184⟩, ⟨0x24b6, 0x24cf, 1, 0x24d0⟩,
   ⟨0x2c00, 0x2c2f, 1, 0x2c30⟩, ⟨0x2c60, 0x2c60, 1, 0x2c61⟩, ⟨0x2c62, 0x2c62, 1, 0x26b⟩,
   ⟨0x2c63, 0x2c63, 1, 0x1d7d⟩, ⟨0x2c64, 0x2c64, 1, 0x27d⟩, ⟨0x2c67, 0x2c6b, 2, 0x2c68⟩,
   ⟨0x2c6d, 0x2c6d, 1, 0x251⟩, ⟨0x2c6e, 0x2c6e, 1, 0x271⟩, ⟨0x2c6f, 0x2c6f, 1, 0x250⟩,
   ⟨0x2c70, 0x2c70, 1, 0x252⟩, ⟨0x2c72, 0x2c72, 1, 0x2c73⟩, ⟨0x2c75, 0x2c75, 1, 0x2c76⟩,
   ⟨0x2c7e, 0x2c7f, 1, 0x23f⟩, ⟨0x2c80, 0x2ce2, 2, 0x2c81⟩, ⟨0x2ceb, 0x2ced, 2, 0x2cec⟩,
   ⟨0x2cf2, 0x2cf2, 1, 0x2cf3⟩, ⟨0xa640, 0xa66c, 2, 0xa641⟩, ⟨0xa680, 0xa69a, 2, 0xa681⟩,
   ⟨0xa722, 0xa72e, 2, 0xa723⟩, ⟨0xa732, 0xa76e, 2, 0xa733⟩, ⟨0xa779, 0xa77b, 2, 0xa77a⟩,
   ⟨0xa77d, 0xa77d, 1, 0x1d79⟩, ⟨0xa77e, 0xa786, 2, 0xa77f⟩, ⟨0xa78b, 0xa78b, 1, 0xa78c⟩,
   ⟨0xa78d, 0xa78d, 1, 0x265⟩, ⟨0xa790, 0xa792, 2, 0xa791⟩, ⟨0xa796, 0xa7a8, 2, 0xa797⟩,
   ⟨0xa7aa, 0xa7aa, 1, 0x266⟩, ⟨0xa7ab, 0xa7ab, 1, 0x25c⟩, ⟨0xa7ac, 0xa7ac, 1, 0x261⟩,
   ⟨0xa7ad, 0xa7ad, 1, 0x26c⟩, ⟨0xa7ae, 0xa7ae, 1, 0x26a⟩, ⟨0xa7b0, 0xa7b0, 1, 0x29e⟩,
   ⟨0xa7b1, 0xa7b1, 1, 0x287⟩, ⟨0xa7b2, 0xa7b2, 1, 0x29d⟩, ⟨0xa7b3, 0xa7b3, 1, 0xab53⟩,
   ⟨0xa7b4, 0xa7c2, 2, 0xa7b5⟩, ⟨0xa7c4, 0xa7c4, 1, 0xa794⟩, ⟨0xa7c5, 0xa7c5, 1, 0x282⟩,
   ⟨0xa7c6, 0xa7c6, 1, 0x1d8e⟩, ⟨0xa7c7, 0xa7c9, 2, 0xa7c8⟩, ⟨0xa7cb, 0xa7cb, 1, 0x264⟩,
   ⟨0xa7cc, 0xa7da, 2, 0xa7cd⟩, ⟨0xa7dc, 0xa7dc, 1, 0x19b⟩, ⟨0xa7f5, 0xa7f5, 1, 0xa7f6⟩,
   ⟨0xff21, 0xff3a, 1, 0xff41⟩, ⟨0x10400, 0x10427, 1, 0x10428⟩, ⟨0x104b0, 0x104d3, 1, 0x104d8⟩,
   ⟨0x10570, 0x1057a, 1, 0x10597⟩, ⟨0x1057c, 0x1058a, 1, 0x105a3⟩, ⟨0x1058c, 0x10592, 1, 0x105b3⟩,
   ⟨0x10594, 0x10595, 1, 0x105bb⟩, ⟨0x10c80, 0x10cb2, 1, 0x10cc0⟩, ⟨0x10d50, 0x10d65, 1, 0x10d70⟩,
   ⟨0x118a0, 0x118bf, 1, 0x118c0⟩, ⟨0x16e40, 0x16e5f, 1, 0x16e60⟩, ⟨0x16ea0, 0x16eb8, 1, 0x16ebb⟩,
   ⟨0x1e900, 0x1e921, 1, 0x1e922⟩]

/-- `char::to_lowercase`. -/
def lowercaseChar (character : Char) : List Char :=
  if character.toNat = 0x130 then ['i', Char.ofNat 0x307]
  else match lowercaseTable.find? (·.covers character.toNat) with
    | some range => [range.lower character.toNat]
    | none => [character]

def capitalSigma : Char := Char.ofNat 0x3a3

section Lowercase

/- The rule that tells a capital sigma at the end of a word from what precedes and follows it. -/
variable (isFinalSigma : List Char → List Char → Bool)

/-- What each character of a text becomes. -/
def lowercaseBlocks (seen : List Char) : List Char → List (List Char)
  | [] => []
  | character :: rest =>
      (if character = capitalSigma then
        [Char.ofNat (if isFinalSigma seen rest then 0x3c2 else 0x3c3)]
      else lowercaseChar character) :: lowercaseBlocks (seen ++ [character]) rest

/-- `str::to_lowercase`. -/
def toLowercase (text : List Char) : List Char := (lowercaseBlocks isFinalSigma [] text).flatten

end Lowercase

/-! ### ASCII characters -/

theorem lowercaseChar_ascii {character : Char} (h : character.toNat < 128) :
    lowercaseChar character = [character.toLower] := by
  have hall : ∀ code < 128, lowercaseChar (Char.ofNat code) = [(Char.ofNat code).toLower] := by
    decide +kernel
  have hcode := hall character.toNat h
  rwa [Char.ofNat_toNat] at hcode

/-- Behind ASCII, a range leads to ASCII only from the Kelvin sign. -/
theorem target_of_mem {range : CaseRange} (h : range ∈ lowercaseTable) :
    range.last < 128 ∨ range = ⟨0x212a, 0x212a, 1, 0x6b⟩ ∨ 128 ≤ range.target ∧
      (range.target + (range.last - range.first) < 0xd800 ∨
        0xdfff < range.target ∧ range.target + (range.last - range.first) < 0x110000) := by
  revert range
  decide +kernel

theorem toNat_ofNat {code : ℕ} (h : code < 0xd800 ∨ 0xdfff < code ∧ code < 0x110000) :
    (Char.ofNat code).toNat = code := by
  have hvalid : code.isValidChar := h
  rw [Char.ofNat, dif_pos hvalid]
  rfl

theorem lowercaseChar_foreign {character : Char} (h : 128 ≤ character.toNat) :
    lowercaseChar character = ['k'] ∨ lowercaseChar character = ['i', Char.ofNat 0x307] ∨
      ∃ lower, lowercaseChar character = [lower] ∧ 128 ≤ lower.toNat := by
  unfold lowercaseChar
  by_cases hdotted : character.toNat = 0x130
  · rw [if_pos hdotted]
    exact .inr (.inl rfl)
  rw [if_neg hdotted]
  cases hfind : lowercaseTable.find? (·.covers character.toNat) with
  | none => exact .inr (.inr ⟨character, rfl, h⟩)
  | some range =>
    have hcovers := List.find?_some hfind
    unfold CaseRange.covers at hcovers
    simp only [Bool.and_eq_true, decide_eq_true_eq] at hcovers
    obtain ⟨⟨hfirst, hlast⟩, -⟩ := hcovers
    rcases target_of_mem (List.mem_of_find?_eq_some hfind) with hascii | rfl | ⟨htarget, hvalid⟩
    · omega
    · have hkelvin : character.toNat = 0x212a := by
        dsimp only at hfirst hlast
        omega
      left
      dsimp only
      rw [hkelvin]
      rfl
    · refine .inr (.inr ⟨_, rfl, ?_⟩)
      rw [CaseRange.lower, toNat_ofNat (by omega)]
      omega

/-- What is known of the lower case of a character, whatever its surroundings. -/
def Lowers (character : Char) (block : List Char) : Prop :=
  if character.toNat < 128 then block = [character.toLower]
  else block = ['k'] ∨ block = ['i', Char.ofNat 0x307] ∨ ∃ lower, block = [lower] ∧ 128 ≤ lower.toNat

theorem lowers_lowercaseChar (character : Char) : Lowers character (lowercaseChar character) := by
  unfold Lowers
  split
  · rename_i hascii
    exact lowercaseChar_ascii hascii
  · rename_i hforeign
    exact lowercaseChar_foreign (Nat.not_lt.mp hforeign)

theorem lowers_sigma {lower : ℕ} (h : lower = 0x3c2 ∨ lower = 0x3c3) :
    Lowers capitalSigma [Char.ofNat lower] := by
  refine .inr (.inr ⟨_, rfl, ?_⟩)
  rcases h with rfl | rfl <;> decide

theorem forall₂_lowercaseBlocks (isFinalSigma : List Char → List Char → Bool)
    (seen text : List Char) : List.Forall₂ Lowers text (lowercaseBlocks isFinalSigma seen text) := by
  induction text generalizing seen with
  | nil => exact .nil
  | cons character rest ih =>
    refine .cons ?_ (ih _)
    split
    · rename_i hsigma
      rw [hsigma]
      refine lowers_sigma ?_
      split
      · exact .inl rfl
      · exact .inr rfl
    · exact lowers_lowercaseChar character

theorem Lowers.ne_nil {character : Char} {block : List Char} (h : Lowers character block) :
    block ≠ [] := by
  unfold Lowers at h
  split at h
  · rw [h]
    exact List.cons_ne_nil _ _
  · rcases h with rfl | rfl | ⟨lower, rfl, -⟩ <;> exact List.cons_ne_nil _ _

/-- An ASCII character at the head of a block comes from its own upper or lower case, or is
a k or the i before a combining dot. -/
theorem Lowers.head_ascii {character head : Char} {rest : List Char}
    (h : Lowers character (head :: rest)) (hhead : head.toNat < 128) :
    character.toLower = head ∧ rest = [] ∨ head = 'k' ∨ head = 'i' ∧ rest = [Char.ofNat 0x307] := by
  unfold Lowers at h
  split at h
  · cases h
    exact .inl ⟨rfl, rfl⟩
  · rcases h with h | h | ⟨lower, h, hlower⟩
    · cases h
      exact .inr (.inl rfl)
    · cases h
      exact .inr (.inr ⟨rfl, rfl⟩)
    · cases h
      omega

end Ketebe
