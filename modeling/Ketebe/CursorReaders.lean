import Ketebe.Lib.CheckedCursor
import Ketebe.WalCodec

/-!
The readers of the files as they move a cursor. Sums, slices and indexes are checked where
the source computes them; each reader implements the one over the bytes that are left.
-/
namespace Ketebe

open Lib.ByteCodec Lib.CheckedCursor Lib.FramedFile

/-! ### The log -/

namespace Wal.Cursor

def overflow : WalError := .corruptFrame "cursor overflow"

def short : WalError := .corruptFrame "unexpected payload end"

def take (len : ℕ) : CursorReader WalError Bytes := CursorReader.take overflow short len

def readU8 : CursorReader WalError UInt8 := CursorReader.byte overflow short

def readU32 : CursorReader WalError ℕ := CursorReader.word overflow short 4 leValue

def readU64 : CursorReader WalError UInt64 :=
  CursorReader.word overflow short 8 fun bytes => UInt64.ofNat (leValue bytes)

def liftDomain {α : Type} (result : Except DomainError α) : CursorReader WalError α :=
  CursorReader.check (result.mapError fun error => .domain error.display)

def readString : CursorReader WalError String := do
  let len ← readU32
  let bytes ← take len
  CursorReader.check (stringFromUtf8 bytes)

def readRecordId : CursorReader WalError RecordId := do
  let tag ← readU8
  if tag = 0 then do
    let value ← readString
    liftDomain (RecordId.ofString value)
  else if tag = 1 then do
    let value ← readU64
    pure (.unsigned value)
  else CursorReader.fail (.corruptFrame "invalid record id tag")

def readF32 : CursorReader WalError F32 := do
  let bits ← readU32
  pure ⟨UInt32.ofNat bits⟩

def readVector : CursorReader WalError Vector := do
  let len ← readU32
  let values ← CursorReader.times readF32 len
  liftDomain (Vector.new values)

def readField (value : CursorReader WalError OrderedValue) :
    CursorReader WalError (String × OrderedValue) := do
  let key ← readString
  let field ← value
  pure (key, field)

def readMetadataWith (value : CursorReader WalError OrderedValue) :
    CursorReader WalError Metadata := do
  let len ← readU32
  let entries ← CursorReader.times (readField value) len
  pure (insertAll entries)

def readArrayWith (value : CursorReader WalError OrderedValue) :
    CursorReader WalError OrderedValue := do
  let len ← readU32
  let values ← CursorReader.times value len
  pure (.array values)

def readBool : CursorReader WalError OrderedValue := do
  let tag ← readU8
  if tag = 0 then pure ⟨.bool false, trivial⟩
  else if tag = 1 then pure ⟨.bool true, trivial⟩
  else CursorReader.fail (.corruptFrame "invalid boolean")

def readTagged (value : CursorReader WalError OrderedValue) (tag : UInt8) :
    CursorReader WalError OrderedValue :=
  if tag = 0 then pure ⟨.null, trivial⟩
  else if tag = 1 then readBool
  else if tag = 2 then do
    let bits ← readU64
    pure ⟨.number ⟨bits⟩, trivial⟩
  else if tag = 3 then do
    let value ← readString
    pure ⟨.string value, trivial⟩
  else if tag = 4 then readArrayWith value
  else if tag = 5 then do
    let metadata ← readMetadataWith value
    pure metadata.toValue
  else CursorReader.fail (.corruptFrame "invalid metadata tag")

/-- The source nests without a bound. Here a nesting that is used up panics, and the depth is
one more than the bytes that are left. -/
def readMetadataValue : ℕ → CursorReader WalError OrderedValue
  | 0 => fun _ => Checked.panics
  | depth + 1 => do
    let tag ← readU8
    readTagged (readMetadataValue depth) tag

def readMetadata : CursorReader WalError Metadata := fun cursor =>
  readMetadataWith (readMetadataValue (cursor.bytes.length - cursor.offset + 1)) cursor

def readMutation (operation : UInt8) (sequence : SequenceNumber) :
    CursorReader WalError WalMutation := do
  let name ← readString
  let collectionId ← liftDomain (CollectionId.new name)
  let recordId ← readRecordId
  if operation = opUpsert then do
    let vector ← readVector
    let metadata ← readMetadata
    pure (.upsert collectionId ⟨recordId, vector, metadata, sequence⟩)
  else if operation = opDelete then pure (.delete collectionId recordId sequence)
  else CursorReader.fail (.invalidOperation operation)

variable {bound : ℕ}

theorem take_implements {len : ℕ} (h : len < 2 ^ 63) : Implements bound (take len) (Wal.take len) :=
  .take _ _ h

theorem readU8_implements : Implements bound readU8 Wal.readU8 := .byte _ _

theorem readU32_implements : Implements bound readU32 Wal.readU32 := .word _ _ (by omega) _

theorem readU64_implements : Implements bound readU64 Wal.readU64 := .word _ _ (by omega) _

theorem readU32_lt {input tail : Bytes} {value : ℕ} (h : Wal.readU32 input = .ok (value, tail)) :
    value < 256 ^ 4 := by
  obtain ⟨bytes, middle, htake, hvalue⟩ := Reader.bind_ok.mp h
  cases hvalue
  rw [← (Implements.length_of_take htake).1]
  exact leValue_lt bytes

theorem liftDomain_implements {α : Type} (result : Except DomainError α) :
    Implements bound (liftDomain result) (Wal.liftDomain result) := .check _

theorem readString_implements : Implements bound readString Wal.readString := by
  refine readU32_implements.bind_of (fun len => len < 256 ^ 4) bound
    (fun input value tail hinput htail h => ⟨readU32_lt h, htail.trans hinput⟩) fun len hlen => ?_
  exact (take_implements (by omega)).bind fun bytes => .check _

theorem readRecordId_implements : Implements bound readRecordId Wal.readRecordId := by
  refine readU8_implements.bind fun tag => ?_
  split
  · exact readString_implements.bind fun value => liftDomain_implements _
  split
  · exact readU64_implements.bind fun value => .pure _
  · exact .fail _

theorem readF32_implements : Implements bound readF32 Wal.readF32 :=
  readU32_implements.bind fun _ => .pure _

theorem readVector_implements : Implements bound readVector Wal.readVector :=
  readU32_implements.bind fun len => (readF32_implements.times len).bind fun _ =>
    liftDomain_implements _

section Nested

variable {cursor : CursorReader WalError OrderedValue} {reader : Reader WalError OrderedValue}

theorem readField_implements (h : Implements bound cursor reader) :
    Implements bound (readField cursor) (Wal.readField reader) :=
  readString_implements.bind fun _ => h.bind fun _ => .pure _

theorem readMetadataWith_implements (h : Implements bound cursor reader) :
    Implements bound (readMetadataWith cursor) (Wal.readMetadataWith reader) :=
  readU32_implements.bind fun len => ((readField_implements h).times len).bind fun _ =>
    .pure _

theorem readArrayWith_implements (h : Implements bound cursor reader) :
    Implements bound (readArrayWith cursor) (Wal.readArrayWith reader) :=
  readU32_implements.bind fun len => (h.times len).bind fun _ => .pure _

theorem readBool_implements : Implements bound readBool Wal.readBool := by
  refine readU8_implements.bind fun tag => ?_
  split
  · exact .pure _
  split
  · exact .pure _
  · exact .fail _

theorem readTagged_implements (h : Implements bound cursor reader) (tag : UInt8) :
    Implements bound (readTagged cursor tag) (Wal.readTagged reader tag) := by
  unfold readTagged Wal.readTagged
  split
  · exact .pure _
  split
  · exact readBool_implements
  split
  · exact readU64_implements.bind fun bits => .pure _
  split
  · exact readString_implements.bind fun value => .pure _
  split
  · exact readArrayWith_implements h
  split
  · exact (readMetadataWith_implements h).bind fun metadata => .pure _
  · exact .fail _

end Nested

/-- A tag is read before the values nested in it. -/
theorem length_of_readU8 {input tail : Bytes} {value : UInt8}
    (h : Wal.readU8 input = .ok (value, tail)) : tail.length + 1 = input.length := by
  obtain ⟨bytes, middle, htake, hvalue⟩ := Reader.bind_ok.mp h
  cases hvalue
  exact (Implements.length_of_take htake).2

/-- A depth of more than the bytes that are left is never used up. -/
theorem readMetadataValue_implements (left : ℕ) :
    Implements left (readMetadataValue (left + 1)) (Wal.readMetadataValue left) := by
  induction left with
  | zero =>
    intro bytes offset hoffset hbytes hleft
    have hbyte : Implements 0 readU8 Wal.readU8 := readU8_implements
    have htag := hbyte bytes offset hoffset hbytes hleft
    rw [List.drop_eq_nil_of_le (by omega)] at htag ⊢
    rw [readMetadataValue, CursorReader.bind_apply]
    have hshort : Wal.readU8 [] = .error (.corruptFrame "unexpected payload end") := rfl
    rw [hshort] at htag
    generalize readU8 ⟨bytes, offset⟩ = checked at htag ⊢
    cases htag with
    | error error => exact .error _
  | succ left ih =>
    refine readU8_implements.bind_of (fun _ => True) left (fun input value tail hinput _ h => ?_)
      fun tag _ => readTagged_implements ih tag
    have hlength := length_of_readU8 h
    exact ⟨trivial, by omega⟩

theorem readMetadata_implements : Implements bound readMetadata Wal.readMetadata := by
  intro bytes offset hoffset hbytes _
  have h := readMetadataWith_implements (readMetadataValue_implements (bytes.length - offset)) bytes
    offset hoffset hbytes le_rfl
  rwa [readMetadata, Wal.readMetadata, List.length_drop]

theorem readMutation_implements (operation : UInt8) (sequence : SequenceNumber) :
    Implements bound (readMutation operation sequence) (Wal.readMutation operation sequence) := by
  refine readString_implements.bind fun name => (liftDomain_implements _).bind fun collectionId =>
    readRecordId_implements.bind fun recordId => ?_
  split
  · exact readVector_implements.bind fun vector => readMetadata_implements.bind fun metadata =>
      .pure _
  split
  · exact .pure _
  · exact .fail _

/-! The frames -/

def decodePayload (operation : UInt8) (sequence : SequenceNumber) (payload : Bytes) :
    Checked WalError WalMutation :=
  CursorReader.finish (readMutation operation sequence) (.corruptFrame "trailing payload bytes")
    payload

def validateHeader (header : Bytes) : Checked WalError Unit := do
  let marks ← Checked.slice header 0 4
  if marks ≠ magic then Checked.returns (.error .invalidMagic)
  else do
    let found ← Checked.item header 4
    if found ≠ version then Checked.returns (.error (.unsupportedVersion found))
    else Checked.returns (.ok ())

structure FrameHeader where
  operation : UInt8
  payloadLen : ℕ
  sequence : SequenceNumber
  checksum : UInt32

def readHeader (header : Bytes) : Checked WalError FrameHeader := do
  let operation ← Checked.item header 5
  let lengthBytes ← Checked.slice header 8 12 >>= Checked.array 4
  let sequenceBytes ← Checked.slice header 12 20 >>= Checked.array 8
  let checksumBytes ← Checked.slice header 20 24 >>= Checked.array 4
  pure ⟨operation, leValue lengthBytes, UInt64.ofNat (leValue sequenceBytes),
    UInt32.ofNat (leValue checksumBytes)⟩

/-- The loop of `decode_log`. It ends before `fuel` does, which is more than the bytes that
are left. -/
def decodeFrames (bytes : Bytes) : ℕ → Option SequenceNumber → ℕ → Checked WalError ReplayResult
  | 0, _, _ => Checked.panics
  | fuel + 1, previous, offset =>
    if bytes.length ≤ offset then Checked.returns (.ok ⟨[], 0⟩)
    else if bytes.length - offset < headerLen then
      Checked.returns (.ok ⟨[], bytes.length - offset⟩)
    else do
      let headerEnd ← Checked.sum offset headerLen
      let header ← Checked.slice bytes offset headerEnd
      validateHeader header
      let frame ← readHeader header
      let frameLen ← Checked.sumOr (.corruptFrame "payload length overflow") headerLen
        frame.payloadLen
      if bytes.length - offset < frameLen then Checked.returns (.ok ⟨[], bytes.length - offset⟩)
      else do
        Checked.returns (checkSequence previous frame.sequence)
        let first ← Checked.sum offset headerLen
        let last ← Checked.sum offset frameLen
        let payload ← Checked.slice bytes first last
        if crc32 payload ≠ frame.checksum then
          Checked.returns (.error (.checksumMismatch frame.sequence))
        else do
          let entry ← decodePayload frame.operation frame.sequence payload
          let next ← Checked.sum offset frameLen
          let rest ← decodeFrames bytes fuel (some frame.sequence) next
          pure (rest.cons entry)

def decodeLog (bytes : Bytes) : Checked WalError ReplayResult :=
  decodeFrames bytes (bytes.length + 1) none 0

theorem decodePayload_eq (operation : UInt8) (sequence : SequenceNumber) {payload : Bytes}
    (h : payload.length < 2 ^ 63) : decodePayload operation sequence payload =
      Checked.returns (Wal.decodePayload operation sequence payload) := by
  rw [decodePayload, (readMutation_implements operation sequence).finish _ h, Wal.decodePayload]
  cases Wal.readMutation operation sequence payload with
  | error error => rfl
  | ok pair =>
    obtain ⟨mutation, rest⟩ := pair
    rw [except_ok_bind, except_ok_bind]
    dsimp only
    by_cases hrest : rest = []
    · rw [if_neg (not_not.mpr hrest), if_pos hrest]
    · rw [if_pos hrest, if_neg hrest]

section Headers

variable {header : Bytes}

theorem validateHeader_eq (h : header.length = headerLen) :
    validateHeader header = Checked.returns (Wal.validateHeader header) := by
  unfold headerLen at h
  unfold validateHeader Wal.validateHeader
  rw [Checked.slice_of_le (by omega) (by omega), Checked.returns_ok_bind, List.drop_zero]
  split
  · rfl
  · rw [Checked.item_of_getElem? (getElem?_eq_getD (by omega)), Checked.returns_ok_bind]
    split <;> rfl

theorem readHeader_eq (h : header.length = headerLen) : readHeader header =
    Checked.returns (.ok ⟨headerOperation header, headerPayloadLen header, headerSequence header,
      headerChecksum header⟩) := by
  unfold headerLen at h
  have hlength : ((Checked.slice header 8 12 : Checked WalError Bytes) >>= Checked.array 4) = _ :=
    Checked.array_slice header 8 4 (by omega)
  have hsequence : ((Checked.slice header 12 20 : Checked WalError Bytes) >>= Checked.array 8) = _ :=
    Checked.array_slice header 12 8 (by omega)
  have hchecksum : ((Checked.slice header 20 24 : Checked WalError Bytes) >>= Checked.array 4) = _ :=
    Checked.array_slice header 20 4 (by omega)
  rw [readHeader, Checked.item_of_getElem? (getElem?_eq_getD (by omega)), Checked.returns_ok_bind,
    hlength, Checked.returns_ok_bind, hsequence, Checked.returns_ok_bind, hchecksum,
    Checked.returns_ok_bind]
  rfl

theorem headerPayloadLen_lt (header : Bytes) : headerPayloadLen header < 256 ^ 4 := by
  refine (leValue_lt _).trans_le (Nat.pow_le_pow_right (by omega) ?_)
  rw [List.length_take]
  exact min_le_left ..

end Headers

theorem decodeFrames_eq {bytes : Bytes} (hbytes : bytes.length < 2 ^ 63) {fuel : ℕ}
    (previous : Option SequenceNumber) {offset : ℕ} (hoffset : offset ≤ bytes.length)
    (hfuel : bytes.length - offset < fuel) :
    decodeFrames bytes fuel previous offset =
      Checked.returns (Wal.decodeFrames previous (bytes.drop offset)) := by
  induction fuel generalizing previous offset with
  | zero => exact absurd hfuel (Nat.not_lt_zero _)
  | succ fuel ih =>
    rw [decodeFrames, Wal.decodeFrames, List.length_drop]
    by_cases hend : bytes.length ≤ offset
    · rw [if_pos hend, if_pos (by unfold headerLen; omega), Nat.sub_eq_zero_of_le hend]
    rw [if_neg hend]
    by_cases hshort : bytes.length - offset < headerLen
    · rw [if_pos hshort, if_pos hshort]
    rw [if_neg hshort, if_neg hshort]
    unfold headerLen at hshort
    have hheader : (Checked.slice bytes offset (offset + headerLen) : Checked WalError Bytes) =
        Checked.returns (.ok ((bytes.drop offset).take headerLen)) := by
      rw [Checked.slice_of_le (by omega) (by unfold headerLen; omega), List.take_drop]
    generalize hvalue : (bytes.drop offset).take headerLen = header at hheader ⊢
    have hlength : header.length = headerLen := by
      rw [← hvalue, List.length_take, List.length_drop]
      unfold headerLen
      omega
    have hpayloadLen := headerPayloadLen_lt header
    have hframe : headerLen + headerPayloadLen header < 2 ^ 63 := by
      unfold headerLen
      omega
    rw [Checked.sum_of_lt (by unfold headerLen; omega), Checked.returns_ok_bind, hheader,
      Checked.returns_ok_bind, validateHeader_eq hlength]
    dsimp only
    cases Wal.validateHeader header with
    | error error => rfl
    | ok checked =>
      rw [Checked.returns_ok_bind, except_ok_bind, readHeader_eq hlength, Checked.returns_ok_bind]
      dsimp only
      rw [Checked.sumOr_of_lt _ (hframe.trans (by norm_num)), Checked.returns_ok_bind]
      by_cases hpart : bytes.length - offset < headerLen + headerPayloadLen header
      · rw [if_pos hpart, if_pos hpart]
        rfl
      rw [if_neg hpart, if_neg hpart]
      cases checkSequence previous (headerSequence header) with
      | error error => rfl
      | ok ordered =>
        have hend : offset + (headerLen + headerPayloadLen header) ≤ bytes.length := by omega
        have hpayload : (Checked.slice bytes (offset + headerLen)
            (offset + (headerLen + headerPayloadLen header)) : Checked WalError Bytes) =
            Checked.returns (.ok (((bytes.drop offset).drop headerLen).take
              (headerPayloadLen header))) := by
          rw [Checked.slice_of_le (by omega) hend, ← Nat.add_assoc, List.drop_take, List.drop_drop,
            Nat.add_sub_cancel_left]
        have hlast : offset + (headerLen + headerPayloadLen header) < 256 ^ 8 := by omega
        rw [Checked.returns_ok_bind, except_ok_bind, Checked.sum_of_lt hlast,
          Checked.returns_ok_bind, Checked.returns_ok_bind, hpayload, Checked.returns_ok_bind]
        split
        · rfl
        · rw [decodePayload_eq _ _ (by rw [List.length_take, List.length_drop, List.length_drop]; omega)]
          cases Wal.decodePayload (headerOperation header) (headerSequence header)
            (((bytes.drop offset).drop headerLen).take (headerPayloadLen header)) with
          | error error => rfl
          | ok entry =>
            rw [Checked.returns_ok_bind, except_ok_bind, Checked.returns_ok_bind,
              ih (some (headerSequence header)) hend (by unfold headerLen at *; omega), List.drop_drop]
            cases Wal.decodeFrames (some (headerSequence header))
              (bytes.drop (offset + (headerLen + headerPayloadLen header))) with
            | error error => rfl
            | ok rest => rfl

/-- Every slice and every sum of `decode_log` is in range. -/
theorem decodeLog_eq {bytes : Bytes} (hbytes : bytes.length < 2 ^ 63) :
    decodeLog bytes = Checked.returns (Wal.decodeLog bytes) :=
  decodeFrames_eq hbytes none (Nat.zero_le _) (by omega)

theorem decodeLog_eq_magic : decodeLog magic = Checked.returns (Wal.decodeLog magic) :=
  decodeLog_eq (by decide)

end Wal.Cursor

end Ketebe
