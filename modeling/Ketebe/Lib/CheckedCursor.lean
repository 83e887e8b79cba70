import Ketebe.Lib.FramedFile

/-!
Readers with a cursor into their input, whose sums are checked for overflow and whose slices
are checked for their range. A program that fails such a check panics and returns nothing.
`Implements` says that a cursor does not panic and returns what a reader of prefixes returns.
-/
namespace Ketebe.Lib.CheckedCursor

open ByteCodec FramedFile

variable {ε ε' α β : Type}

/-! ### Checked operations -/

/-- What a program returns, or none when it panics. -/
abbrev Checked (ε α : Type) := ExceptT ε Option α

namespace Checked

def returns (result : Except ε α) : Checked ε α := ExceptT.mk (some result)

def panics : Checked ε α := ExceptT.mk none

/-- A sum of sizes, which panics when it overflows. -/
def sum (left right : ℕ) : Checked ε ℕ :=
  if left + right < 256 ^ 8 then returns (.ok (left + right)) else panics

/-- A sum of sizes that reports its overflow. -/
def sumOr (overflow : ε) (left right : ℕ) : Checked ε ℕ :=
  if left + right < 256 ^ 8 then returns (.ok (left + right)) else returns (.error overflow)

def slice (list : List α) (first last : ℕ) : Checked ε (List α) :=
  if first ≤ last ∧ last ≤ list.length then returns (.ok ((list.take last).drop first)) else panics

def item (list : List α) (index : ℕ) : Checked ε α :=
  match list[index]? with
  | some value => returns (.ok value)
  | none => panics

/-- A slice as an array of a fixed length. -/
def array (width : ℕ) (bytes : Bytes) : Checked ε Bytes :=
  if bytes.length = width then returns (.ok bytes) else panics

def mapError (f : ε → ε') (checked : Checked ε α) : Checked ε' α :=
  ExceptT.mk (checked.run.map (Except.mapError f))

@[simp] theorem returns_ok_bind (value : α) (next : α → Checked ε β) :
    returns (.ok value) >>= next = next value := rfl

@[simp] theorem returns_error_bind (error : ε) (next : α → Checked ε β) :
    returns (.error error) >>= next = returns (.error error) := rfl

theorem panics_bind (next : α → Checked ε β) : panics >>= next = panics := rfl

theorem returns_bind (result : Except ε α) (next : α → Except ε β) :
    (returns result >>= fun value => returns (next value)) = returns (result >>= next) := by
  cases result <;> rfl

theorem returns_ne_panics (result : Except ε α) : returns result ≠ panics := nofun

theorem sum_of_lt {left right : ℕ} (h : left + right < 256 ^ 8) :
    (sum left right : Checked ε ℕ) = returns (.ok (left + right)) := if_pos h

theorem sumOr_of_lt {left right : ℕ} (overflow : ε) (h : left + right < 256 ^ 8) :
    sumOr overflow left right = returns (.ok (left + right)) := if_pos h

theorem slice_of_le {list : List α} {first last : ℕ} (h : first ≤ last) (hlast : last ≤ list.length) :
    (slice list first last : Checked ε (List α)) = returns (.ok ((list.take last).drop first)) :=
  if_pos ⟨h, hlast⟩

theorem item_of_getElem? {list : List α} {index : ℕ} {value : α} (h : list[index]? = some value) :
    (item list index : Checked ε α) = returns (.ok value) := by
  rw [item, h]

theorem array_of_length {width : ℕ} {bytes : Bytes} (h : bytes.length = width) :
    (array width bytes : Checked ε Bytes) = returns (.ok bytes) := if_pos h

end Checked

/-! ### Cursors -/

structure Cursor where
  bytes : Bytes
  offset : ℕ

abbrev CursorReader (ε α : Type) := StateT Cursor (Checked ε) α

namespace CursorReader

/-- The next bytes. Their end is a sum that is checked before it is compared. -/
def take (overflow short : ε) (count : ℕ) : CursorReader ε Bytes := fun cursor => do
  let last ← Checked.sumOr overflow cursor.offset count
  if cursor.bytes.length < last then Checked.returns (.error short)
  else do
    let value ← Checked.slice cursor.bytes cursor.offset last
    Checked.returns (.ok (value, { cursor with offset := last }))

def lift (checked : Checked ε α) : CursorReader ε α := fun cursor => do
  let value ← checked
  Checked.returns (.ok (value, cursor))

def fail (error : ε) : CursorReader ε α := fun _ => Checked.returns (.error error)

def check (result : Except ε α) : CursorReader ε α := fun cursor =>
  Checked.returns (result.map fun value => (value, cursor))

def mapError (f : ε → ε') (reader : CursorReader ε α) : CursorReader ε' α := fun cursor =>
  (reader cursor).mapError f

def times (reader : CursorReader ε α) : ℕ → CursorReader ε (List α)
  | 0 => pure []
  | count + 1 => do
    let head ← reader
    let tail ← times reader count
    pure (head :: tail)

def timesDistinct {κ : Type} [DecidableEq κ] (reader : CursorReader ε α) (key : α → κ)
    (duplicate : ε) : List κ → ℕ → CursorReader ε (List α)
  | _, 0 => pure []
  | seen, count + 1 => do
    let head ← reader
    if key head ∈ seen then fail duplicate
    else do
      let tail ← timesDistinct reader key duplicate (key head :: seen) count
      pure (head :: tail)

/-- The first of a slice of one byte. -/
def byte (overflow short : ε) : CursorReader ε UInt8 := do
  let bytes ← take overflow short 1
  lift (Checked.item bytes 0)

/-- A slice of the width of a word, as what is made of its bytes. -/
def word (overflow short : ε) (width : ℕ) (fromLeBytes : Bytes → α) : CursorReader ε α := do
  let slice ← take overflow short width
  let bytes ← lift (Checked.array width slice)
  pure (fromLeBytes bytes)

/-- Reads all of the bytes. -/
def finish (reader : CursorReader ε α) (trailing : ε) (bytes : Bytes) : Checked ε α := do
  let (value, cursor) ← reader ⟨bytes, 0⟩
  if cursor.offset = cursor.bytes.length then Checked.returns (.ok value)
  else Checked.returns (.error trailing)

theorem bind_apply (reader : CursorReader ε α) (next : α → CursorReader ε β) (cursor : Cursor) :
    (reader >>= next) cursor = (reader cursor >>= fun pair => next pair.1 pair.2) := rfl

end CursorReader

/-! ### Cursors without a panic -/

/-- The cursor returns what the reader returns, and stands where the rest starts. -/
inductive Follows (bytes : Bytes) (offset : ℕ) :
    Checked ε (α × Cursor) → Except ε (α × Bytes) → Prop where
  | error (error : ε) : Follows bytes offset (Checked.returns (.error error)) (.error error)
  | ok (value : α) (next : ℕ) : offset ≤ next → next ≤ bytes.length →
      Follows bytes offset (Checked.returns (.ok (value, ⟨bytes, next⟩)))
        (.ok (value, bytes.drop next))

/-- No input is as long as half of the sizes, and at most `bound` bytes are left. -/
def Implements (bound : ℕ) (cursor : CursorReader ε α) (reader : Reader ε α) : Prop :=
  ∀ (bytes : Bytes) (offset : ℕ), offset ≤ bytes.length → bytes.length < 2 ^ 63 →
    bytes.length - offset ≤ bound →
      Follows bytes offset (cursor ⟨bytes, offset⟩) (reader (bytes.drop offset))

namespace Implements

variable {bound : ℕ} {cursor : CursorReader ε α} {reader : Reader ε α}
variable {next : α → CursorReader ε β} {follow : α → Reader ε β}

theorem pure (value : α) : Implements (ε := ε) bound (Pure.pure value) (Pure.pure value) :=
  fun _ offset hoffset _ _ => .ok value offset le_rfl hoffset

theorem fail (error : ε) :
    Implements bound (CursorReader.fail error : CursorReader ε α) (Reader.fail error) :=
  fun _ _ _ _ _ => .error error

theorem check (result : Except ε α) :
    Implements bound (CursorReader.check result) (Reader.check result) := by
  intro bytes offset hoffset _ _
  cases result with
  | error error => exact .error error
  | ok value => exact .ok value offset le_rfl hoffset

theorem take (overflow short : ε) {count : ℕ} (hcount : count < 2 ^ 63) :
    Implements bound (CursorReader.take overflow short count) (Reader.take short count) := by
  intro bytes offset hoffset hbytes _
  have hsum : offset + count < 256 ^ 8 := by omega
  simp only [CursorReader.take, Reader.take]
  rw [Checked.sumOr_of_lt _ hsum, Checked.returns_ok_bind, List.length_drop]
  by_cases hcount : offset + count ≤ bytes.length
  · rw [if_neg (not_lt.mpr hcount), if_pos (by omega), Checked.slice_of_le (by omega) hcount,
      List.drop_drop, List.take_drop]
    exact .ok _ _ (by omega) hcount
  · rw [if_pos (not_le.mp hcount), if_neg (by omega)]
    exact .error short

/-- What follows a reader may use what is known of the value and of the rest. -/
theorem bind_of (h : Implements bound cursor reader) (known : α → Prop) (rest : ℕ)
    (hknown : ∀ input value tail, input.length ≤ bound → tail.length ≤ input.length →
      reader input = .ok (value, tail) → known value ∧ tail.length ≤ rest)
    (hnext : ∀ value, known value → Implements rest (next value) (follow value)) :
    Implements bound (cursor >>= next) (reader >>= follow) := by
  intro bytes offset hoffset hbytes hbound
  have hfirst := h bytes offset hoffset hbytes hbound
  rw [CursorReader.bind_apply]
  change Follows _ _ _ (reader (bytes.drop offset) >>= fun pair => follow pair.1 pair.2)
  generalize hchecked : cursor ⟨bytes, offset⟩ = checked at hfirst
  generalize hresult : reader (bytes.drop offset) = result at hfirst
  cases hfirst with
  | error error => exact .error error
  | ok value middle hle hmiddle =>
    obtain ⟨hvalue, hrest⟩ := hknown _ value _ (by rw [List.length_drop]; exact hbound)
      (by rw [List.length_drop, List.length_drop]; omega) hresult
    rw [List.length_drop] at hrest
    have hsecond := hnext value hvalue bytes middle hmiddle hbytes hrest
    change Follows _ _ (next value ⟨bytes, middle⟩) (follow value (bytes.drop middle))
    generalize next value ⟨bytes, middle⟩ = checked' at hsecond ⊢
    generalize follow value (bytes.drop middle) = result' at hsecond ⊢
    cases hsecond with
    | error error => exact .error error
    | ok value' last hle' hlast => exact .ok value' last (hle.trans hle') hlast

theorem bind (h : Implements bound cursor reader)
    (hnext : ∀ value, Implements bound (next value) (follow value)) :
    Implements bound (cursor >>= next) (reader >>= follow) :=
  h.bind_of (fun _ => True) bound (fun _ _ _ hinput htail _ => ⟨trivial, htail.trans hinput⟩)
    fun value _ => hnext value

theorem length_of_take {short : ε} {count : ℕ} {input value tail : Bytes}
    (h : Reader.take short count input = .ok (value, tail)) :
    value.length = count ∧ tail.length + count = input.length := by
  unfold Reader.take at h
  split at h
  · cases h
    rw [List.length_take, List.length_drop]
    omega
  · cases h

theorem lift {checked : Checked ε α} {value : α} (h : checked = Checked.returns (.ok value)) :
    Implements bound (CursorReader.lift checked) (Pure.pure value) := by
  intro bytes offset hoffset _ _
  rw [h]
  exact .ok value offset le_rfl hoffset

theorem byte (overflow short : ε) : Implements bound (CursorReader.byte overflow short) (do
    let bytes ← Reader.take short 1
    Pure.pure (bytes.headD 0)) := by
  refine (take overflow short (by omega)).bind_of (fun bytes => bytes.length = 1) bound
    (fun input value tail hinput htail h => ⟨(length_of_take h).1, htail.trans hinput⟩) ?_
  intro bytes hlength
  obtain ⟨first, rfl⟩ := List.length_eq_one_iff.mp hlength
  exact lift rfl

theorem word (overflow short : ε) {width : ℕ} (hwidth : width < 2 ^ 63) (fromLeBytes : Bytes → α) :
    Implements bound (CursorReader.word overflow short width fromLeBytes) (do
      let bytes ← Reader.take short width
      Pure.pure (fromLeBytes bytes)) := by
  refine (take overflow short hwidth).bind_of (fun bytes => bytes.length = width) bound
    (fun input value tail hinput htail h => ⟨(length_of_take h).1, htail.trans hinput⟩) ?_
  intro bytes hlength
  exact (lift (Checked.array_of_length hlength)).bind fun word => pure (fromLeBytes word)

theorem mapError (h : Implements bound cursor reader) (f : ε → ε') :
    Implements bound (cursor.mapError f) (reader.mapError f) := by
  intro bytes offset hoffset hbytes hbound
  have hfirst := h bytes offset hoffset hbytes hbound
  rw [CursorReader.mapError, Reader.mapError]
  generalize cursor ⟨bytes, offset⟩ = checked at hfirst ⊢
  generalize reader (bytes.drop offset) = result at hfirst ⊢
  cases hfirst with
  | error error => exact .error (f error)
  | ok value last hle hlast => exact .ok value last hle hlast

theorem times (h : Implements bound cursor reader) (count : ℕ) :
    Implements bound (CursorReader.times cursor count) (Reader.times reader count) := by
  induction count with
  | zero => exact pure []
  | succ count ih => exact h.bind fun head => ih.bind fun tail => pure (head :: tail)

theorem timesDistinct {κ : Type} [DecidableEq κ] (h : Implements bound cursor reader) (key : α → κ)
    (duplicate : ε) (seen : List κ) (count : ℕ) :
    Implements bound (CursorReader.timesDistinct cursor key duplicate seen count)
      (Reader.timesDistinct reader key duplicate seen count) := by
  induction count generalizing seen with
  | zero => exact pure []
  | succ count ih =>
    refine h.bind fun head => ?_
    split
    · exact fail duplicate
    · exact (ih _).bind fun tail => pure (head :: tail)

/-- All of the bytes are read without a panic. -/
theorem finish {bytes : Bytes} (h : Implements bytes.length cursor reader) (trailing : ε)
    (hbytes : bytes.length < 2 ^ 63) : CursorReader.finish cursor trailing bytes =
      Checked.returns (do
        let (value, rest) ← reader bytes
        if rest ≠ [] then throw trailing
        else Pure.pure value) := by
  have hall := h bytes 0 (Nat.zero_le _) hbytes (Nat.sub_le ..)
  rw [List.drop_zero] at hall
  rw [CursorReader.finish]
  generalize cursor ⟨bytes, 0⟩ = checked at hall ⊢
  generalize reader bytes = result at hall ⊢
  cases hall with
  | error error => rfl
  | ok value last hle hlast =>
    rw [Checked.returns_ok_bind]
    change (if last = bytes.length then _ else _) = Checked.returns (if bytes.drop last ≠ [] then _ else _)
    by_cases hend : last = bytes.length
    · rw [if_pos hend, if_neg (not_not.mpr (List.drop_eq_nil_of_le (by omega)))]
      rfl
    · rw [if_neg hend, if_pos fun hnil => hend (le_antisymm hlast (List.drop_eq_nil_iff.mp hnil))]
      rfl

end Implements

/-! ### Files with a header -/

/-- The checks of a header, where `total` adds up the length of the file. -/
def decodeFrame (format : Format ε) (total : ℕ → Checked ε ℕ) (bytes : Bytes) : Checked ε Bytes :=
  if bytes.length < headerLen then Checked.returns (.error format.truncated)
  else do
    let magic ← Checked.slice bytes 0 4
    if magic ≠ format.magic then Checked.returns (.error format.invalidMagic)
    else do
      let version ← Checked.item bytes 4
      if version ≠ format.version then
        Checked.returns (.error (format.unsupportedVersion version))
      else do
        let lengthSlice ← Checked.slice bytes 8 16
        let lengthBytes ← Checked.array 8 lengthSlice
        let expected ← total (leValue lengthBytes)
        if bytes.length ≠ expected then Checked.returns (.error format.lengthMismatch)
        else do
          let checksumSlice ← Checked.slice bytes 16 20
          let checksumBytes ← Checked.array 4 checksumSlice
          let payload ← Checked.slice bytes headerLen bytes.length
          if format.checksum payload ≠ UInt32.ofNat (leValue checksumBytes) then
            Checked.returns (.error format.checksumMismatch)
          else Checked.returns (.ok payload)

/-- The header is long enough and bears the marks of the format. -/
def Marked (format : Format ε) (bytes : Bytes) : Prop :=
  headerLen ≤ bytes.length ∧ bytes.take 4 = format.magic ∧ bytes.getD 4 0 = format.version

theorem getElem?_eq_getD {list : List UInt8} {index : ℕ} (h : index < list.length) :
    list[index]? = some (list.getD index 0) := by
  rw [List.getD_eq_getElem?_getD, List.getElem?_eq_getElem h, Option.getD_some]

/-- The slice of a fixed length inside of an input. -/
theorem Checked.array_slice (bytes : Bytes) (first width : ℕ) (h : first + width ≤ bytes.length) :
    ((Checked.slice bytes first (first + width) : Checked ε Bytes) >>= Checked.array width) =
      Checked.returns (.ok ((bytes.drop first).take width)) := by
  rw [Checked.slice_of_le (Nat.le_add_right ..) h, Checked.returns_ok_bind, List.drop_take,
    Nat.add_sub_cancel_left]
  exact Checked.array_of_length (by rw [List.length_take, List.length_drop]; omega)

section Frames

variable {format : Format ε} {total : ℕ → Checked ε ℕ} {bytes : Bytes}

/-- Behind the marks the length of the file decides. -/
theorem decodeFrame_of_marked (h : Marked format bytes) : decodeFrame format total bytes =
    total (payloadLen bytes) >>= fun expected =>
      if bytes.length ≠ expected then Checked.returns (.error format.lengthMismatch)
      else if format.checksum (bytes.drop headerLen) ≠ storedChecksum bytes then
        Checked.returns (.error format.checksumMismatch)
      else Checked.returns (.ok (bytes.drop headerLen)) := by
  obtain ⟨hlength, hmagic, hversion⟩ := h
  unfold headerLen at hlength
  have hfour : bytes[4]? = some format.version := by
    rw [← hversion]
    exact getElem?_eq_getD (by omega)
  have hfront : (Checked.slice bytes 0 4 : Checked ε Bytes) =
      Checked.returns (.ok format.magic) := by
    rw [Checked.slice_of_le (by omega) (by omega), List.drop_zero, hmagic]
  have hlengthBytes : ((Checked.slice bytes 8 16 : Checked ε Bytes) >>= Checked.array 8) = _ :=
    Checked.array_slice bytes 8 8 (by omega)
  have hchecksum : ((Checked.slice bytes 16 20 : Checked ε Bytes) >>= Checked.array 4) = _ :=
    Checked.array_slice bytes 16 4 (by omega)
  have hpayload : (Checked.slice bytes headerLen bytes.length : Checked ε Bytes) =
      Checked.returns (.ok (bytes.drop headerLen)) := by
    rw [Checked.slice_of_le (by unfold headerLen; omega) le_rfl, List.take_length]
  rw [decodeFrame, if_neg (by unfold headerLen; omega), hfront, Checked.returns_ok_bind,
    if_neg (not_not.mpr rfl), Checked.item_of_getElem? hfour, Checked.returns_ok_bind,
    if_neg (not_not.mpr rfl), ← bind_assoc, hlengthBytes, Checked.returns_ok_bind]
  refine congrArg _ (funext fun expected => ?_)
  split
  · rfl
  · rw [← bind_assoc, hchecksum, Checked.returns_ok_bind, hpayload, Checked.returns_ok_bind]
    rfl

theorem decodeFrame_of_not_marked (h : ¬Marked format bytes) :
    decodeFrame format total bytes = Checked.returns (format.decode bytes) := by
  unfold decodeFrame Format.decode
  split
  · rfl
  · rename_i hlength
    unfold headerLen at hlength
    rw [Checked.slice_of_le (by omega) (by omega), Checked.returns_ok_bind, List.drop_zero]
    split
    · rfl
    · rename_i hmagic
      have hfour : bytes[4]? = some (bytes.getD 4 0) := getElem?_eq_getD (by omega)
      have hversion : bytes.getD 4 0 ≠ format.version := fun hversion =>
        h ⟨by unfold headerLen; omega, not_not.mp hmagic, hversion⟩
      rw [Checked.item_of_getElem? hfour, Checked.returns_ok_bind, if_pos hversion, if_pos hversion]

/-- A sum that is the one of the format makes the header the one of the format. -/
theorem decodeFrame_eq (h : Marked format bytes →
      total (payloadLen bytes) = Checked.returns (format.totalLen (payloadLen bytes))) :
    decodeFrame format total bytes = Checked.returns (format.decode bytes) := by
  by_cases hmarked : Marked format bytes
  · obtain ⟨hlength, hmagic, hversion⟩ := hmarked
    rw [decodeFrame_of_marked ⟨hlength, hmagic, hversion⟩, h ⟨hlength, hmagic, hversion⟩,
      Format.decode, if_neg (not_lt.mpr hlength), if_neg (not_not.mpr hmagic),
      if_neg (not_not.mpr hversion)]
    cases format.totalLen (payloadLen bytes) with
    | error error => rfl
    | ok expected =>
      rw [Checked.returns_ok_bind, except_ok_bind]
      split
      · rfl
      · split <;> rfl
  · exact decodeFrame_of_not_marked hmarked

theorem decodeFrame_panics (hmarked : Marked format bytes)
    (h : total (payloadLen bytes) = Checked.panics) :
    decodeFrame format total bytes = Checked.panics := by
  rw [decodeFrame_of_marked hmarked, h]
  rfl

theorem length_le_of_decode {payload : Bytes} (h : format.decode bytes = .ok payload) :
    payload.length ≤ bytes.length := by
  have hpayload : payload = bytes.drop headerLen := by
    unfold Format.decode at h
    split at h
    · cases h
    · split at h
      · cases h
      · split at h
        · cases h
        · obtain ⟨expected, -, h⟩ := except_bind_ok.mp h
          split at h
          · cases h
          · split at h
            · cases h
            · exact (Except.ok.inj h).symm
  rw [hpayload, List.length_drop]
  exact Nat.sub_le ..

/-- A framed file is read without a panic where its header is. -/
theorem decodeFile_eq {cursor : CursorReader ε α} {reader : Reader ε α}
    (h : ∀ bound, Implements bound cursor reader) (trailing : ε) (hbytes : bytes.length < 2 ^ 63)
    (hframe : decodeFrame format total bytes = Checked.returns (format.decode bytes)) :
    (decodeFrame format total bytes >>= CursorReader.finish cursor trailing) =
      Checked.returns (format.decode bytes >>= fun payload => do
        let (value, rest) ← reader payload
        if rest ≠ [] then throw trailing
        else pure value) := by
  rw [hframe]
  cases hdecode : format.decode bytes with
  | error error => rfl
  | ok payload =>
    rw [Checked.returns_ok_bind, except_ok_bind]
    exact (h _).finish trailing ((length_le_of_decode hdecode).trans_lt hbytes)

end Frames

end Ketebe.Lib.CheckedCursor
