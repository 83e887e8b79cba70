import Ketebe.Lib.ByteCodec
import Ketebe.Record

/-!
The write-ahead log. A frame is a 24-byte header followed by the payload of
one mutation; a log is the frames in order. Replay stops silently at a final
frame that is not complete and fails on anything else it cannot decode.
-/
namespace Ketebe

open Lib.ByteCodec

inductive WalMutation where
  | upsert (collectionId : CollectionId) (record : Record)
  | delete (collectionId : CollectionId) (recordId : RecordId) (sequenceNumber : SequenceNumber)

namespace WalMutation

def sequenceNumber : WalMutation → SequenceNumber
  | .upsert _ record => record.sequenceNumber
  | .delete _ _ sequenceNumber => sequenceNumber

def collectionId : WalMutation → CollectionId
  | .upsert collectionId _ => collectionId
  | .delete collectionId _ _ => collectionId

def recordId : WalMutation → RecordId
  | .upsert _ record => record.id
  | .delete _ recordId _ => recordId

end WalMutation

inductive WalError where
  | io
  | unsupportedVersion (version : UInt8)
  | invalidMagic
  | invalidOperation (operation : UInt8)
  | checksumMismatch (sequence : UInt64)
  | corruptFrame (message : String)
  | sequenceRegression (previous current : UInt64)
  | domain (message : String)
  deriving DecidableEq, Repr

namespace Wal

def magic : Bytes := [0x4b, 0x54, 0x57, 0x4c]

def version : UInt8 := 1

def headerLen : ℕ := 24

def opUpsert : UInt8 := 1

def opDelete : UInt8 := 2

/-- One bit of the reflected CRC-32; the mask is `0` or all ones. -/
def crc32Shift (crc : UInt32) : UInt32 :=
  (crc >>> 1) ^^^ (0xedb88320 &&& (0 - (crc &&& 1)))

def crc32Byte (crc : UInt32) (byte : UInt8) : UInt32 :=
  (List.range 8).foldl (fun crc _ => crc32Shift crc) (crc ^^^ byte.toUInt32)

def crc32 (bytes : Bytes) : UInt32 := ~~~(bytes.foldl crc32Byte 0xffffffff)

/-! ### Encoding -/

def writeLen (message : String) (len : ℕ) : Except WalError Bytes :=
  if len < 256 ^ 4 then .ok (leBytes 4 len) else .error (.corruptFrame message)

def writeString (value : String) : Except WalError Bytes := do
  let len ← writeLen "string too large" (utf8 value).length
  pure (len ++ utf8 value)

def writeRecordId : RecordId → Except WalError Bytes
  | .string value _ => do
    let bytes ← writeString value
    pure (0 :: bytes)
  | .unsigned value => pure (1 :: leBytes 8 value.toNat)

def writeVector (vector : Vector) : Except WalError Bytes := do
  let len ← writeLen "vector too large" vector.length
  pure (len ++ vector.values.flatMap fun value => leBytes 4 value.bits.toNat)

mutual

def writeMetadataValue : MetadataValue → Except WalError Bytes
  | .null => pure [0]
  | .bool value => pure [1, if value then 1 else 0]
  | .number value => pure (2 :: leBytes 8 value.bits.toNat)
  | .string value => do
    let bytes ← writeString value
    pure (3 :: bytes)
  | .array values => do
    let len ← writeLen "metadata array too large" values.length
    let body ← writeMetadataValues values
    pure (4 :: (len ++ body))
  | .object fields => do
    let len ← writeLen "metadata too large" fields.length
    let body ← writeFields fields
    pure (5 :: (len ++ body))

def writeMetadataValues : List MetadataValue → Except WalError Bytes
  | [] => pure []
  | value :: rest => do
    let head ← writeMetadataValue value
    let tail ← writeMetadataValues rest
    pure (head ++ tail)

def writeFields : Fields → Except WalError Bytes
  | [] => pure []
  | (key, value) :: rest => do
    let name ← writeString key
    let head ← writeMetadataValue value
    let tail ← writeFields rest
    pure (name ++ (head ++ tail))

end

def writeMetadata (metadata : Metadata) : Except WalError Bytes := do
  let len ← writeLen "metadata too large" metadata.fields.length
  let body ← writeFields metadata.fields
  pure (len ++ body)

def encodePayload : WalMutation → Except WalError (UInt8 × Bytes)
  | .upsert collectionId record => do
    let collection ← writeString collectionId.asStr
    let id ← writeRecordId record.id
    let vector ← writeVector record.vector
    let metadata ← writeMetadata record.metadata
    pure (opUpsert, collection ++ (id ++ (vector ++ metadata)))
  | .delete collectionId recordId _ => do
    let collection ← writeString collectionId.asStr
    let id ← writeRecordId recordId
    pure (opDelete, collection ++ id)

/-- The header: magic, version, operation, two reserved bytes, payload
length, sequence number and payload checksum. -/
def encodeHeader (operation : UInt8) (sequence : SequenceNumber) (payload : Bytes) : Bytes :=
  magic ++ [version, operation, 0, 0] ++ leBytes 4 payload.length ++
    leBytes 8 sequence.toNat ++ leBytes 4 (crc32 payload).toNat

def encodeFrame (mutation : WalMutation) : Except WalError Bytes := do
  let (operation, payload) ← encodePayload mutation
  if payload.length < 256 ^ 4 then
    pure (encodeHeader operation mutation.sequenceNumber payload ++ payload)
  else throw (.corruptFrame "payload too large")

/-! ### Decoding -/

def take (count : ℕ) : Reader WalError Bytes :=
  Reader.take (.corruptFrame "unexpected payload end") count

def readU8 : Reader WalError UInt8 := do
  let bytes ← take 1
  pure (bytes.headD 0)

def readU32 : Reader WalError ℕ := do
  let bytes ← take 4
  pure (leValue bytes)

def readU64 : Reader WalError UInt64 := do
  let bytes ← take 8
  pure (UInt64.ofNat (leValue bytes))

def liftDomain {α : Type} (result : Except DomainError α) : Reader WalError α :=
  Reader.check (result.mapError fun error => .domain error.display)

/-- `String::from_utf8` with the cursor's error. -/
def stringFromUtf8 (bytes : Bytes) : Except WalError String :=
  match ofUtf8 bytes with
  | some value => .ok value
  | none => .error (.corruptFrame "invalid UTF-8")

def readString : Reader WalError String := do
  let len ← readU32
  let bytes ← take len
  Reader.check (stringFromUtf8 bytes)

def readRecordId : Reader WalError RecordId := do
  let tag ← readU8
  if tag = 0 then do
    let value ← readString
    liftDomain (RecordId.ofString value)
  else if tag = 1 then do
    let value ← readU64
    pure (.unsigned value)
  else Reader.fail (.corruptFrame "invalid record id tag")

def readF32 : Reader WalError F32 := do
  let bits ← readU32
  pure ⟨UInt32.ofNat bits⟩

def readVector : Reader WalError Vector := do
  let len ← readU32
  let values ← Reader.times readF32 len
  liftDomain (Vector.new values)

def readField (value : Reader WalError OrderedValue) : Reader WalError (String × OrderedValue) := do
  let key ← readString
  let field ← value
  pure (key, field)

/-- The fields are inserted in the order read; a repeated key keeps its last value. -/
def insertAll (entries : List (String × OrderedValue)) : Metadata :=
  entries.foldl (fun metadata entry => metadata.insert entry.1 entry.2) .empty

def readMetadataWith (value : Reader WalError OrderedValue) : Reader WalError Metadata := do
  let len ← readU32
  let entries ← Reader.times (readField value) len
  pure (insertAll entries)

def readArrayWith (value : Reader WalError OrderedValue) : Reader WalError OrderedValue := do
  let len ← readU32
  let values ← Reader.times value len
  pure (.array values)

def readBool : Reader WalError OrderedValue := do
  let tag ← readU8
  if tag = 0 then pure ⟨.bool false, trivial⟩
  else if tag = 1 then pure ⟨.bool true, trivial⟩
  else Reader.fail (.corruptFrame "invalid boolean")

/-- The value after its tag; `value` reads the nested values. -/
def readTagged (value : Reader WalError OrderedValue) (tag : UInt8) :
    Reader WalError OrderedValue :=
  if tag = 0 then pure ⟨.null, trivial⟩
  else if tag = 1 then readBool
  else if tag = 2 then do
    let bits ← readU64
    pure ⟨.number ⟨bits⟩, trivial⟩
  else if tag = 3 then do
    let value ← readString
    pure ⟨.string value, trivial⟩
  else if tag = 4 then readArrayWith value
  else if tag = 5 then do
    let metadata ← readMetadataWith value
    pure metadata.toValue
  else Reader.fail (.corruptFrame "invalid metadata tag")

/-- Nesting is bounded by `depth`. Every level reads at least its tag, so a
bound of the input's length is never reached before the input ends. -/
def readMetadataValue : ℕ → Reader WalError OrderedValue
  | 0 => Reader.fail (.corruptFrame "unexpected payload end")
  | depth + 1 => do
    let tag ← readU8
    readTagged (readMetadataValue depth) tag

def readMetadata : Reader WalError Metadata := fun input =>
  readMetadataWith (readMetadataValue input.length) input

def readMutation (operation : UInt8) (sequence : SequenceNumber) :
    Reader WalError WalMutation := do
  let name ← readString
  let collectionId ← liftDomain (CollectionId.new name)
  let recordId ← readRecordId
  if operation = opUpsert then do
    let vector ← readVector
    let metadata ← readMetadata
    pure (.upsert collectionId ⟨recordId, vector, metadata, sequence⟩)
  else if operation = opDelete then pure (.delete collectionId recordId sequence)
  else Reader.fail (.invalidOperation operation)

def decodePayload (operation : UInt8) (sequence : SequenceNumber) (payload : Bytes) :
    Except WalError WalMutation := do
  let (mutation, rest) ← readMutation operation sequence payload
  if rest = [] then pure mutation else throw (.corruptFrame "trailing payload bytes")

structure ReplayResult where
  entries : List WalMutation
  ignoredTailBytes : ℕ

namespace ReplayResult

def cons (entry : WalMutation) (result : ReplayResult) : ReplayResult :=
  ⟨entry :: result.entries, result.ignoredTailBytes⟩

end ReplayResult

def validateHeader (header : Bytes) : Except WalError Unit :=
  if header.take 4 ≠ magic then .error .invalidMagic
  else if header.getD 4 0 ≠ version then .error (.unsupportedVersion (header.getD 4 0))
  else .ok ()

def headerOperation (header : Bytes) : UInt8 := header.getD 5 0

def headerPayloadLen (header : Bytes) : ℕ := leValue ((header.drop 8).take 4)

def headerSequence (header : Bytes) : SequenceNumber :=
  UInt64.ofNat (leValue ((header.drop 12).take 8))

def headerChecksum (header : Bytes) : UInt32 := UInt32.ofNat (leValue ((header.drop 20).take 4))

def checkSequence (previous : Option SequenceNumber) (current : SequenceNumber) :
    Except WalError Unit :=
  match previous with
  | some previous =>
      if current ≤ previous then .error (.sequenceRegression previous current) else .ok ()
  | none => .ok ()

/-- The loop of `decode_log` from the current offset; an exhausted input is
the tail of length 0. -/
def decodeFrames (previous : Option SequenceNumber) (bytes : Bytes) :
    Except WalError ReplayResult :=
  if bytes.length < headerLen then .ok ⟨[], bytes.length⟩
  else do
    let header := bytes.take headerLen
    validateHeader header
    let payloadLen := headerPayloadLen header
    let sequence := headerSequence header
    if bytes.length < headerLen + payloadLen then pure ⟨[], bytes.length⟩
    else do
      checkSequence previous sequence
      let payload := (bytes.drop headerLen).take payloadLen
      if crc32 payload ≠ headerChecksum header then throw (.checksumMismatch sequence)
      else do
        let entry ← decodePayload (headerOperation header) sequence payload
        let rest ← decodeFrames (some sequence) (bytes.drop (headerLen + payloadLen))
        pure (rest.cons entry)
termination_by bytes.length
decreasing_by
  simp only [headerLen, List.length_drop] at *
  omega

def decodeLog (bytes : Bytes) : Except WalError ReplayResult := decodeFrames none bytes

/-- A missing file replays to nothing. -/
def replayPath : Option Bytes → Except WalError ReplayResult
  | none => .ok ⟨[], 0⟩
  | some bytes => decodeLog bytes

end Wal

/-! ### The open log -/

inductive SyncPolicy where
  | durable
  | buffered
  deriving DecidableEq, Repr

/-- What the file system does with one append. A failing `write_all` leaves a
prefix of the bytes in the file; `flush` and `sync_data` fail after all of them. -/
inductive AppendOutcome where
  | done
  | writeFails (written : ℕ)
  | flushFails
  | syncFails
  deriving DecidableEq, Repr

structure Wal where
  file : Bytes
  syncPolicy : SyncPolicy
  lastSequence : Option SequenceNumber

namespace Wal

def openWithPolicy (path : Option Bytes) (syncPolicy : SyncPolicy) : Except WalError Wal := do
  let replay ← replayPath path
  pure ⟨path.getD [], syncPolicy, replay.entries.getLast?.map WalMutation.sequenceNumber⟩

/-- The loop of `append_batch`: each mutation is checked against the one before
it and then encoded. -/
def encodeBatch (previous : Option SequenceNumber) :
    List WalMutation → Except WalError (Bytes × Option SequenceNumber)
  | [] => pure ([], previous)
  | mutation :: rest => do
    checkSequence previous mutation.sequenceNumber
    let frame ← encodeFrame mutation
    let (encoded, last) ← encodeBatch (some mutation.sequenceNumber) rest
    pure (frame ++ encoded, last)

def writeFile (wal : Wal) (encoded : Bytes) : Wal := { wal with file := wal.file ++ encoded }

def writeBatch (wal : Wal) (encoded : Bytes) (last : Option SequenceNumber) :
    AppendOutcome → Wal × Except WalError Unit
  | .writeFails written => (wal.writeFile (encoded.take written), .error .io)
  | .flushFails => (wal.writeFile encoded, .error .io)
  | .syncFails =>
      if wal.syncPolicy = .durable then (wal.writeFile encoded, .error .io)
      else ({ wal.writeFile encoded with lastSequence := last }, .ok ())
  | .done => ({ wal.writeFile encoded with lastSequence := last }, .ok ())

def appendBatch (wal : Wal) (mutations : List WalMutation) (outcome : AppendOutcome) :
    Wal × Except WalError Unit :=
  if mutations.isEmpty then (wal, .ok ())
  else match encodeBatch wal.lastSequence mutations with
    | .error error => (wal, .error error)
    | .ok (encoded, last) => wal.writeBatch encoded last outcome

def replay (wal : Wal) : Except WalError ReplayResult := decodeLog wal.file

end Wal

end Ketebe
