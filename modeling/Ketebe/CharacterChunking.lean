import Ketebe.Lib.SlidingWindows
import Ketebe.TextBoundaries

/-!
Chunks of a fixed number of characters. Each chunk starts one step behind the previous one,
and a step is the size of a chunk without the overlap. The chunks cut the text: the first
one, followed by what each later one adds behind its overlap, is the text.
-/
namespace Ketebe

open Lib.SlidingWindows

/-! ### Configuration -/

structure ChunkingConfig where
  maxChars : UInt64
  overlapChars : UInt64
  deriving DecidableEq

inductive ChunkingError where
  | invalidConfig (message : String)
  | schemaMismatch
  deriving DecidableEq

namespace ChunkingConfig

def default : ChunkingConfig := ⟨800, 100⟩

def validate (config : ChunkingConfig) : Except ChunkingError ChunkingConfig :=
  if config.maxChars = 0 then .error (.invalidConfig "max_chars must be greater than zero")
  else if config.maxChars ≤ config.overlapChars then
    .error (.invalidConfig "overlap_chars must be smaller than max_chars")
  else .ok config

theorem validate_eq_ok {config valid : ChunkingConfig} :
    config.validate = .ok valid ↔
      config.overlapChars.toNat < config.maxChars.toNat ∧ config = valid := by
  simp only [validate, UInt64.le_iff_toNat_le, ← UInt64.toNat_inj]
  split
  · rename_i hzero
    have hnone : (0 : UInt64).toNat = 0 := rfl
    constructor
    · rintro ⟨⟩
    · rintro ⟨hlt, _⟩
      omega
  · split
    · constructor
      · rintro ⟨⟩
      · rintro ⟨hlt, _⟩
        omega
    · rename_i hlt
      rw [Except.ok.injEq]
      exact ⟨fun h => ⟨by omega, h⟩, And.right⟩

theorem validate_default : default.validate = .ok default := by decide

/-- A chunk and the overlap, as window sizes. -/
def windows {config : ChunkingConfig} (h : config.overlapChars.toNat < config.maxChars.toNat) :
    Policy where
  size := config.maxChars.toNat
  overlap := config.overlapChars.toNat
  least := 1
  overlap_lt := h
  least_pos := Nat.one_pos
  least_le := Nat.one_le_of_lt h

end ChunkingConfig

/-! ### The loop -/

structure TextChunk where
  ordinal : ℕ
  startChar : ℕ
  endChar : ℕ
  text : List Char
  deriving DecidableEq, Repr

/-- A `&str`, whose bytes fit into `isize::MAX`. -/
structure Str where
  chars : List Char
  size_lt : byteLength chars < 2 ^ 63

/-- A sum of `usize`, which panics where it overflows. -/
def usizeAdd (left right : ℕ) : Option ℕ :=
  if left + right < 2 ^ 64 then some (left + right) else none

/-- A difference of `usize`, which panics where it is negative. -/
def usizeSub (left right : ℕ) : Option ℕ :=
  if right ≤ left then some (left - right) else none

/-- `chars[start..end]`, which panics outside the characters. -/
def charRange (chars : List Char) (start stop : ℕ) : Option (List Char) :=
  if start ≤ stop ∧ stop ≤ chars.length then some (chars.extract start stop) else none

/-- The loop, of at most `fuel` rounds. It fails where a round panics or none is left. -/
def chunkLoop (chars : List Char) (maxChars step : ℕ) :
    ℕ → ℕ → List TextChunk → Option (List TextChunk)
  | fuel, start, chunks =>
      if start < chars.length then
        match fuel with
        | 0 => none
        | fuel + 1 => do
            let stop := min (← usizeAdd start maxChars) chars.length
            let chunk : TextChunk :=
              ⟨chunks.length, start, stop, ← charRange chars start stop⟩
            if stop = chars.length then pure (chunks ++ [chunk])
            else
              chunkLoop chars maxChars step fuel (min (start + step) (2 ^ 64 - 1))
                (chunks ++ [chunk])
      else some chunks

def chunkText (fuel : ℕ) (text : Str) (config : ChunkingConfig) : Option (List TextChunk) :=
  if text.chars = [] then some []
  else do
    let step ← usizeSub config.maxChars.toNat config.overlapChars.toNat
    chunkLoop text.chars config.maxChars.toNat step fuel 0 []

/-- The chunk of a window over the characters. -/
def chunkAt (chars : List Char) (window : (ℕ × ℕ) × ℕ) : TextChunk :=
  ⟨window.2, window.1.1, window.1.2, windowOf chars window.1⟩

theorem length_le_byteLength (text : List Char) : text.length ≤ byteLength text := by
  induction text with
  | nil => exact le_rfl
  | cons character rest ih =>
    have hpos := character.utf8Size_pos
    rw [byteLength, Lib.Occurrences.extent_cons, List.length_cons]
    rw [byteLength] at ih
    omega

theorem Str.length_lt (text : Str) : text.chars.length < 2 ^ 63 :=
  (length_le_byteLength text.chars).trans_lt text.size_lt

section Loop

variable {config : ChunkingConfig} {chars : List Char} {start fuel : ℕ}

/-- A later round starts within the characters, whose number is far from overflowing. -/
theorem chunkLoop_eq (h : config.overlapChars.toNat < config.maxChars.toNat)
    (hlength : chars.length < 2 ^ 63) (hfuel : chars.length ≤ start + fuel)
    (hstart : start < chars.length) (hsize : start + config.maxChars.toNat < 2 ^ 64)
    (chunks : List TextChunk) :
    chunkLoop chars config.maxChars.toNat (config.maxChars.toNat - config.overlapChars.toNat)
        fuel start chunks =
      some (chunks ++ ((windowsFrom (ChunkingConfig.windows h) [] chars.length start).zipIdx
        chunks.length).map (chunkAt chars)) := by
  induction fuel generalizing start chunks with
  | zero => omega
  | succ fuel ih =>
    have hend : windowEnd (ChunkingConfig.windows h) [] chars.length start =
        min (start + config.maxChars.toNat) chars.length := windowEnd_noBreaks ..
    have hrange : charRange chars start (min (start + config.maxChars.toNat) chars.length) =
        some (windowOf chars (start, min (start + config.maxChars.toNat) chars.length)) :=
      if_pos ⟨by omega, min_le_right _ _⟩
    rw [chunkLoop, if_pos hstart]
    simp only [usizeAdd, if_pos hsize, hrange, Option.bind_eq_bind, Option.bind_some,
      Option.pure_def]
    split
    · rename_i hlast
      rw [windowsFrom_last hstart (hend.trans hlast), hlast]
      rfl
    · rename_i hnext
      have hstop : windowEnd (ChunkingConfig.windows h) [] chars.length start ≠ chars.length :=
        fun hlast => hnext (hend.symm.trans hlast)
      have hbound : windowEnd (ChunkingConfig.windows h) [] chars.length start < chars.length := by
        omega
      have hstep : nextStart (ChunkingConfig.windows h) start
          (windowEnd (ChunkingConfig.windows h) [] chars.length start) =
            start + (config.maxChars.toNat - config.overlapChars.toNat) :=
        nextStart_noBreaks hbound
      have hsaturate : min (start + (config.maxChars.toNat - config.overlapChars.toNat))
          (2 ^ 64 - 1) = start + (config.maxChars.toNat - config.overlapChars.toNat) := by
        omega
      rw [hsaturate, ih (by omega) (by omega) (by omega), windowsFrom_next hstart hstop, hstep,
        hend, List.zipIdx_cons, List.map_cons, List.length_append, List.append_assoc]
      rfl

theorem chunkText_eq {text : Str} (h : config.overlapChars.toNat < config.maxChars.toNat)
    (hfuel : text.chars.length ≤ fuel) :
    chunkText fuel text config =
      some ((Lib.SlidingWindows.windows (ChunkingConfig.windows h) [] text.chars.length).zipIdx.map
        (chunkAt text.chars)) := by
  have hlength := text.length_lt
  rw [chunkText, Lib.SlidingWindows.windows]
  split
  · rename_i hempty
    rw [windowsFrom, dif_neg (by rw [hempty]; exact Nat.lt_irrefl 0)]
    rfl
  · rename_i hchars
    have hsub : usizeSub config.maxChars.toNat config.overlapChars.toNat =
        some (config.maxChars.toNat - config.overlapChars.toNat) := if_pos h.le
    have hmax := config.maxChars.toNat_lt
    rw [hsub, Option.bind_eq_bind, Option.bind_some,
      chunkLoop_eq h hlength (by omega) (List.length_pos_iff.mpr hchars) (by omega), List.nil_append]
    rfl

end Loop

/-! ### The chunks -/

/-- The chunks of a text: chunk `i` starts `i` steps behind the first one, and there is such
a chunk exactly when the overlap does not reach the end of the text. -/
structure Cuts (text : List Char) (maxChars overlapChars : ℕ) (chunks : List TextChunk) :
    Prop where
  covers : ∀ i (hi : i < chunks.length),
    chunks[i].startChar = i * (maxChars - overlapChars) ∧
      chunks[i].endChar = min (i * (maxChars - overlapChars) + maxChars) text.length ∧
      chunks[i].text = text.extract chunks[i].startChar chunks[i].endChar
  ordinals : ∀ i (hi : i < chunks.length), chunks[i].ordinal = i
  number : ∀ i, i < chunks.length ↔
    0 < text.length ∧ (i = 0 ∨ i * (maxChars - overlapChars) + overlapChars < text.length)
  full : ∀ i (hi : i + 1 < chunks.length), chunks[i].text.length = maxChars
  longer : ∀ i (hi : i + 1 < chunks.length), overlapChars < chunks[i + 1].text.length
  reassembles : (chunks.head?.elim [] TextChunk.text) ++
    chunks.tail.flatMap (fun chunk => chunk.text.drop overlapChars) = text

section Cuts

variable {text : List Char} {maxChars overlapChars : ℕ} {chunks : List TextChunk}

/-- The lengths of the chunks follow from where they start and end. -/
theorem cuts_of_getElem? (h : overlapChars < maxChars)
    (hchunk : ∀ i, chunks[i]? =
      if 0 < text.length ∧ (i = 0 ∨ i * (maxChars - overlapChars) + overlapChars < text.length) then
        some (chunkAt text ((i * (maxChars - overlapChars),
          min (i * (maxChars - overlapChars) + maxChars) text.length), i))
      else none)
    (hreassembles : (chunks.head?.elim [] TextChunk.text) ++
      chunks.tail.flatMap (fun chunk => chunk.text.drop overlapChars) = text) :
    Cuts text maxChars overlapChars chunks := by
  have hnumber (i : ℕ) : i < chunks.length ↔
      0 < text.length ∧ (i = 0 ∨ i * (maxChars - overlapChars) + overlapChars < text.length) := by
    by_cases hfits : 0 < text.length ∧
        (i = 0 ∨ i * (maxChars - overlapChars) + overlapChars < text.length)
    · obtain ⟨hi, _⟩ := List.getElem?_eq_some_iff.mp ((hchunk i).trans (if_pos hfits))
      exact iff_of_true hi hfits
    · have hi := List.getElem?_eq_none_iff.mp ((hchunk i).trans (if_neg hfits))
      exact iff_of_false (by omega) hfits
  have hget (i : ℕ) (hi : i < chunks.length) : chunks[i] =
      chunkAt text ((i * (maxChars - overlapChars),
        min (i * (maxChars - overlapChars) + maxChars) text.length), i) := by
    have hsome := hchunk i
    rw [List.getElem?_eq_getElem hi, if_pos ((hnumber i).mp hi)] at hsome
    exact Option.some.inj hsome
  have hlength (i : ℕ) (hi : i < chunks.length) : chunks[i].text.length =
      min (i * (maxChars - overlapChars) + maxChars) text.length -
        i * (maxChars - overlapChars) := by
    rw [hget i hi]
    exact length_windowOf _ _ (min_le_right _ _)
  have hbehind (i : ℕ) (hi : i + 1 < chunks.length) :
      i * (maxChars - overlapChars) + maxChars < text.length := by
    have hnext := (hnumber (i + 1)).mp hi
    have hmul : (i + 1) * (maxChars - overlapChars) =
        i * (maxChars - overlapChars) + (maxChars - overlapChars) := Nat.succ_mul ..
    omega
  refine ⟨fun i hi => ?_, fun i hi => ?_, hnumber, fun i hi => ?_, fun i hi => ?_, hreassembles⟩
  · rw [hget i hi]
    exact ⟨rfl, rfl, rfl⟩
  · rw [hget i hi]
    rfl
  · have hend := hbehind i hi
    rw [hlength i (by omega)]
    omega
  · have hend := hbehind i hi
    have hmul : (i + 1) * (maxChars - overlapChars) =
        i * (maxChars - overlapChars) + (maxChars - overlapChars) := Nat.succ_mul ..
    rw [hlength (i + 1) hi]
    omega

end Cuts

section Windows

variable (policy : Policy) (chars : List Char)

theorem windows_getElem? (i : ℕ) :
    (Lib.SlidingWindows.windows policy [] chars.length)[i]? =
      if 0 < chars.length ∧
          (i = 0 ∨ i * (policy.size - policy.overlap) + policy.overlap < chars.length) then
        some (i * (policy.size - policy.overlap),
          min (i * (policy.size - policy.overlap) + policy.size) chars.length)
      else none := by
  rw [Lib.SlidingWindows.windows]
  by_cases hpos : 0 < chars.length
  · rw [windowsFrom_getElem? hpos, Nat.zero_add]
    simp only [hpos, true_and]
  · rw [windowsFrom, dif_neg hpos, List.getElem?_nil, if_neg fun h => hpos h.1]

/-- The texts of the chunks are what the windows hold. -/
theorem chunks_reassemble :
    ((((Lib.SlidingWindows.windows policy [] chars.length).zipIdx.map (chunkAt chars)).head?.elim
      [] TextChunk.text) ++
      ((Lib.SlidingWindows.windows policy [] chars.length).zipIdx.map (chunkAt chars)).tail.flatMap
        (fun chunk => chunk.text.drop policy.overlap)) = chars := by
  by_cases hpos : 0 < chars.length
  · obtain ⟨first, rest, hwindows, hchars⟩ := windows_reassemble policy chars hpos
    rw [Lib.SlidingWindows.windows, hwindows, List.zipIdx_cons, List.map_cons, List.tail_cons,
      List.flatMap_map]
    have htexts : (rest.zipIdx 1).flatMap
        (fun window => (windowOf chars window.1).drop policy.overlap) =
          rest.flatMap (fun window => (windowOf chars window).drop policy.overlap) := by
      have hfirst := congrArg
        (List.flatMap fun window => (windowOf chars window).drop policy.overlap)
        (List.zipIdx_map_fst 1 rest)
      rwa [List.flatMap_map] at hfirst
    exact (congrArg (windowOf chars first ++ ·) htexts).trans hchars
  · have hempty : chars = [] := List.length_eq_zero_iff.mp (by omega)
    rw [Lib.SlidingWindows.windows, windowsFrom, dif_neg hpos, hempty]
    rfl

end Windows

/-- The loop ends within as many rounds as the text has characters. -/
theorem chunkText_cuts (text : Str) (config : ChunkingConfig) (fuel : ℕ)
    (hvalid : config.validate = .ok config) (hfuel : text.chars.length ≤ fuel) :
    ∃ chunks, chunkText fuel text config = some chunks ∧
      Cuts text.chars config.maxChars.toNat config.overlapChars.toNat chunks := by
  have hlt := (ChunkingConfig.validate_eq_ok.mp hvalid).1
  refine ⟨_, chunkText_eq hlt hfuel, cuts_of_getElem? hlt (fun i => ?_) (chunks_reassemble (ChunkingConfig.windows hlt) text.chars)⟩
  have hwindow := windows_getElem? (ChunkingConfig.windows hlt) text.chars i
  by_cases hfits : 0 < text.chars.length ∧ (i = 0 ∨
      i * (config.maxChars.toNat - config.overlapChars.toNat) + config.overlapChars.toNat <
        text.chars.length)
  · rw [List.getElem?_map, List.getElem?_zipIdx, hwindow.trans (if_pos hfits), if_pos hfits,
      Nat.zero_add]
    rfl
  · rw [List.getElem?_map, List.getElem?_zipIdx, hwindow.trans (if_neg hfits), if_neg hfits]
    rfl

theorem chunkText_cuts_letters :
    ∃ chunks, chunkText 10 ⟨"abcdefghij".toList, by decide⟩ ⟨5, 2⟩ = some chunks ∧
      Cuts "abcdefghij".toList 5 2 chunks :=
  chunkText_cuts ⟨"abcdefghij".toList, by decide⟩ ⟨5, 2⟩ 10 (by decide) (by decide)

end Ketebe
