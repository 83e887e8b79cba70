import Ketebe.CheckpointFile
import Ketebe.ControlPlaneCodec
import Ketebe.CursorReaders
import Ketebe.SegmentCodec

/-!
The framed files as their decoders move a cursor. The decoder of segments reports an overflow
of the length in the header; those of checkpoints and of the control plane just add it up,
which panics in a build with overflow checks and wraps around in one without.
-/
namespace Ketebe

open Lib.ByteCodec Lib.CheckedCursor Lib.FramedFile Lib.KeyedTable

/-! ### Lengths that overflow -/

/-- The marks are right and the length of the file does not fit into 64 bits. -/
def Overflows {ε : Type} (format : Format ε) (bytes : Bytes) : Prop :=
  Marked format bytes ∧ 256 ^ 8 ≤ headerLen + payloadLen bytes

section Lengths

variable {ε : Type} {format : Format ε} {bytes : Bytes}

theorem decodeFrame_reported {overflow : ε} (htotal : ∀ payloadLen, format.totalLen payloadLen =
    if headerLen + payloadLen < 256 ^ 8 then .ok (headerLen + payloadLen) else .error overflow) :
    decodeFrame format (Checked.sumOr overflow headerLen) bytes =
      Checked.returns (format.decode bytes) := by
  refine decodeFrame_eq fun _ => ?_
  rw [htotal, Checked.sumOr]
  split <;> rfl

theorem decodeFrame_overflows (h : Overflows format bytes) :
    decodeFrame format (Checked.sum headerLen) bytes = Checked.panics :=
  decodeFrame_panics h.1 (if_neg (not_lt.mpr h.2))

/-- A sum that wraps around is never seen: it has panicked. -/
theorem decodeFrame_not_overflows
    (htotal : ∀ payloadLen, format.totalLen payloadLen = .ok ((headerLen + payloadLen) % 256 ^ 8))
    (h : ¬Overflows format bytes) : decodeFrame format (Checked.sum headerLen) bytes =
      Checked.returns (format.decode bytes) := by
  refine decodeFrame_eq fun hmarked => ?_
  have hlt : headerLen + payloadLen bytes < 256 ^ 8 := not_le.mp fun hle => h ⟨hmarked, hle⟩
  rw [htotal, Checked.sum_of_lt hlt, Nat.mod_eq_of_lt hlt]

end Lengths

/-! ### Segments -/

namespace SegmentFile.Cursor

def readU32 : CursorReader SegmentError ℕ := Wal.Cursor.readU32.mapError ofWal

def readU64 : CursorReader SegmentError UInt64 := Wal.Cursor.readU64.mapError ofWal

def readRecordId : CursorReader SegmentError RecordId := Wal.Cursor.readRecordId.mapError ofWal

def readCollectionId : CursorReader SegmentError CollectionId := do
  let name ← Wal.Cursor.readString.mapError ofWal
  (Wal.Cursor.liftDomain (CollectionId.new name)).mapError ofWal

def readRecord : CursorReader SegmentError Record := do
  let id ← readRecordId
  let sequenceNumber ← readU64
  let vector ← Wal.Cursor.readVector.mapError ofWal
  let metadata ← Wal.Cursor.readMetadata.mapError ofWal
  pure ⟨id, vector, metadata, sequenceNumber⟩

def readTombstone (seen : List RecordId) : CursorReader SegmentError Tombstone := do
  let recordId ← readRecordId
  if recordId ∈ seen then CursorReader.fail (.corrupt "record and tombstone overlap")
  else do
    let sequenceNumber ← readU64
    pure ⟨recordId, sequenceNumber⟩

def readEntries : CursorReader SegmentError (List Record × List Tombstone) := do
  let recordCount ← readU32
  let records ← CursorReader.timesDistinct readRecord Record.id (.corrupt "duplicate record id") []
    recordCount
  let tombstoneCount ← readU32
  let tombstones ← CursorReader.times (readTombstone (records.map Record.id)) tombstoneCount
  pure (records, tombstones)

def readSegment : CursorReader SegmentError Segment := do
  let collectionId ← readCollectionId
  let id ← readU64
  let minSequence ← readU64
  let maxSequence ← readU64
  CursorReader.check (checkRange minSequence maxSequence)
  let entries ← readEntries
  pure ⟨id, collectionId, minSequence, maxSequence, entries.1, entries.2⟩

def decodeSegment (bytes : Bytes) : Checked SegmentError Segment :=
  decodeFrame format (Checked.sumOr (.corrupt "segment length overflow") headerLen) bytes >>=
    CursorReader.finish readSegment (.corrupt "trailing payload bytes")

variable {bound : ℕ}

theorem readU32_implements : Implements bound readU32 SegmentFile.readU32 :=
  Wal.Cursor.readU32_implements.mapError ofWal

theorem readU64_implements : Implements bound readU64 SegmentFile.readU64 :=
  Wal.Cursor.readU64_implements.mapError ofWal

theorem readRecordId_implements : Implements bound readRecordId SegmentFile.readRecordId :=
  Wal.Cursor.readRecordId_implements.mapError ofWal

theorem readCollectionId_implements :
    Implements bound readCollectionId SegmentFile.readCollectionId :=
  (Wal.Cursor.readString_implements.mapError ofWal).bind fun _ =>
    (Wal.Cursor.liftDomain_implements _).mapError ofWal

theorem readRecord_implements : Implements bound readRecord SegmentFile.readRecord :=
  readRecordId_implements.bind fun _ => readU64_implements.bind fun _ =>
    (Wal.Cursor.readVector_implements.mapError ofWal).bind fun _ =>
      (Wal.Cursor.readMetadata_implements.mapError ofWal).bind fun _ => .pure _

theorem readTombstone_implements (seen : List RecordId) :
    Implements bound (readTombstone seen) (SegmentFile.readTombstone seen) := by
  refine readRecordId_implements.bind fun recordId => ?_
  split
  · exact .fail _
  · exact readU64_implements.bind fun _ => .pure _

theorem readEntries_implements : Implements bound readEntries SegmentFile.readEntries :=
  readU32_implements.bind fun recordCount =>
    (readRecord_implements.timesDistinct Record.id _ [] recordCount).bind fun _ =>
      readU32_implements.bind fun tombstoneCount =>
        ((readTombstone_implements _).times tombstoneCount).bind fun _ => .pure _

theorem readSegment_implements : Implements bound readSegment SegmentFile.readSegment :=
  readCollectionId_implements.bind fun _ => readU64_implements.bind fun _ =>
    readU64_implements.bind fun _ => readU64_implements.bind fun _ =>
      (Implements.check _).bind fun _ => readEntries_implements.bind fun _ => .pure _

/-- Every slice and every sum of `decode_segment` is in range. -/
theorem decodeSegment_eq {bytes : Bytes} (hbytes : bytes.length < 2 ^ 63) :
    decodeSegment bytes = Checked.returns (SegmentFile.decodeSegment bytes) :=
  decodeFile_eq (fun _ => readSegment_implements) _ hbytes (decodeFrame_reported fun _ => rfl)

theorem decodeSegment_eq_magic :
    decodeSegment magic = Checked.returns (SegmentFile.decodeSegment magic) :=
  decodeSegment_eq (by decide)

end SegmentFile.Cursor

/-! ### Checkpoints -/

namespace CheckpointFile.Cursor

def overflow : CheckpointError := .corrupt "cursor overflow"

def short : CheckpointError := .corrupt "truncated payload"

def readExact (len : ℕ) : CursorReader CheckpointError Bytes := CursorReader.take overflow short len

def readU32 : CursorReader CheckpointError ℕ := CursorReader.word overflow short 4 leValue

def readU64 : CursorReader CheckpointError UInt64 :=
  CursorReader.word overflow short 8 fun bytes => UInt64.ofNat (leValue bytes)

def readCollectionId : CursorReader CheckpointError CollectionId := do
  let len ← readU32
  let bytes ← readExact len
  let name ← CursorReader.check (collectionName bytes)
  CursorReader.check ((CollectionId.new name).mapError fun error => .domain error.display)

def readCheckpoint : CursorReader CheckpointError Checkpoint := do
  let collectionId ← readCollectionId
  let sequenceNumber ← readU64
  let segmentCount ← readU32
  let segments ← CursorReader.times readU64 segmentCount
  pure (Checkpoint.new collectionId segments sequenceNumber)

def decodeCheckpoint (bytes : Bytes) : Checked CheckpointError Checkpoint :=
  decodeFrame format (Checked.sum headerLen) bytes >>=
    CursorReader.finish readCheckpoint (.corrupt "trailing payload bytes")

variable {bound : ℕ}

theorem readU32_implements : Implements bound readU32 CheckpointFile.readU32 :=
  .word _ _ (by omega) _

theorem readU64_implements : Implements bound readU64 CheckpointFile.readU64 :=
  .word _ _ (by omega) _

theorem readCollectionId_implements :
    Implements bound readCollectionId CheckpointFile.readCollectionId := by
  refine readU32_implements.bind_of (fun len => len < 256 ^ 4) bound
    (fun _ _ _ hinput htail h => ⟨lt_of_readU32 h, htail.trans hinput⟩) fun len hlen => ?_
  exact (Implements.take _ _ (by omega)).bind fun _ => (Implements.check _).bind fun _ => .check _

theorem readCheckpoint_implements : Implements bound readCheckpoint CheckpointFile.readCheckpoint :=
  readCollectionId_implements.bind fun _ => readU64_implements.bind fun _ =>
    readU32_implements.bind fun count => (readU64_implements.times count).bind fun _ => .pure _

/-- `decode_checkpoint` panics where the length in the header overflows, and nowhere else. -/
theorem decodeCheckpoint_panics_iff {bytes : Bytes} (hbytes : bytes.length < 2 ^ 63) :
    (decodeCheckpoint bytes = Checked.panics ↔ Overflows format bytes) ∧
      (¬Overflows format bytes →
        decodeCheckpoint bytes = Checked.returns (CheckpointFile.decodeCheckpoint bytes)) := by
  have hother (h : ¬Overflows format bytes) :
      decodeCheckpoint bytes = Checked.returns (CheckpointFile.decodeCheckpoint bytes) :=
    decodeFile_eq (fun _ => readCheckpoint_implements) _ hbytes (decodeFrame_not_overflows (fun _ => rfl) h)
  refine ⟨⟨fun hpanics => ?_, fun h => ?_⟩, hother⟩
  · by_contra h
    exact Checked.returns_ne_panics _ ((hother h).symm.trans hpanics)
  · rw [decodeCheckpoint, decodeFrame_overflows h]
    rfl

/-- A header with the largest length. -/
def largestLength : Bytes := magic ++ [version, 0, 0, 0] ++ List.replicate 8 0xff ++ [0, 0, 0, 0]

theorem decodeCheckpoint_panics_iff_largest : decodeCheckpoint largestLength = Checked.panics :=
  (decodeCheckpoint_panics_iff (by decide)).1.mpr ⟨⟨by decide, by decide, by decide⟩, by decide⟩

end CheckpointFile.Cursor

/-! ### The control plane -/

namespace ControlPlaneState.Cursor

def overflow : LoadError := .corrupt "cursor overflow"

def short : LoadError := .corrupt "truncated payload"

def readExact (len : ℕ) : CursorReader LoadError Bytes := CursorReader.take overflow short len

def readU8 : CursorReader LoadError UInt8 := CursorReader.byte overflow short

def readU32 : CursorReader LoadError ℕ := CursorReader.word overflow short 4 leValue

def readU64 : CursorReader LoadError ℕ := CursorReader.word overflow short 8 leValue

def readString : CursorReader LoadError String := do
  let len ← readU32
  let bytes ← readExact len
  CursorReader.check (stringFromUtf8 bytes)

def checkDomain {α : Type} (result : Except ControlPlaneDomainError α) : CursorReader LoadError α :=
  CursorReader.check (result.mapError fun error => .store (.domain error.display))

def readLifecycle : CursorReader LoadError ResourceLifecycleState := do
  let value ← readU8
  CursorReader.check (decodeLifecycle value)

def readTimestamps : CursorReader LoadError ResourceTimestamps := do
  let createdAtUnix ← readU64
  let updatedAtUnix ← readU64
  checkDomain (ResourceTimestamps.new createdAtUnix updatedAtUnix)

def readOrganizationId : CursorReader LoadError OrganizationId := do
  let value ← readString
  checkDomain (OrganizationId.new value)

def readProjectId : CursorReader LoadError ProjectId := do
  let value ← readString
  CursorReader.check ((ProjectId.new value).mapError fun error => .store (.domain error.display))

def readOrganization : CursorReader LoadError Organization := do
  let id ← readOrganizationId
  let name ← readString
  let slug ← readString
  let lifecycle ← readLifecycle
  let timestamps ← readTimestamps
  checkDomain (Organization.new id name slug lifecycle timestamps)

def readProject : CursorReader LoadError Project := do
  let id ← readProjectId
  let organizationId ← readOrganizationId
  let name ← readString
  let slug ← readString
  let lifecycle ← readLifecycle
  let timestamps ← readTimestamps
  checkDomain (Project.new id organizationId name slug lifecycle timestamps)

def readState : CursorReader LoadError ControlPlaneState := do
  let organizationCount ← readU32
  let organizations ← CursorReader.timesDistinct readOrganization organizationKey
    (.corrupt "duplicate organization ID") [] organizationCount
  let projectCount ← readU32
  let projects ← CursorReader.timesDistinct readProject projectKey
    (.corrupt "duplicate project ID") [] projectCount
  pure ⟨ofValues organizationKey organizations, ofValues projectKey projects⟩

def decodeState (bytes : Bytes) : Checked LoadError ControlPlaneState := do
  let payload ← decodeFrame format (Checked.sum headerLen) bytes
  let state ← CursorReader.finish readState (.corrupt "trailing payload bytes") payload
  Checked.returns ((state.validateLoadedState).mapError .store)
  pure state

variable {bound : ℕ}

theorem readU8_implements : Implements bound readU8 ControlPlaneState.readU8 := .byte _ _

theorem readU32_implements : Implements bound readU32 ControlPlaneState.readU32 :=
  .word _ _ (by omega) _

theorem readU64_implements : Implements bound readU64 ControlPlaneState.readU64 :=
  .word _ _ (by omega) _

theorem readU32_lt {input tail : Bytes} {value : ℕ}
    (h : ControlPlaneState.readU32 input = .ok (value, tail)) : value < 256 ^ 4 := by
  obtain ⟨bytes, middle, htake, hvalue⟩ := Reader.bind_ok.mp h
  cases hvalue
  rw [← (Implements.length_of_take htake).1]
  exact leValue_lt bytes

theorem readString_implements : Implements bound readString ControlPlaneState.readString := by
  refine readU32_implements.bind_of (fun len => len < 256 ^ 4) bound
    (fun _ _ _ hinput htail h => ⟨readU32_lt h, htail.trans hinput⟩) fun len hlen => ?_
  exact (Implements.take _ _ (by omega)).bind fun _ => .check _

theorem readLifecycle_implements : Implements bound readLifecycle ControlPlaneState.readLifecycle :=
  readU8_implements.bind fun _ => .check _

theorem readTimestamps_implements :
    Implements bound readTimestamps ControlPlaneState.readTimestamps :=
  readU64_implements.bind fun _ => readU64_implements.bind fun _ => .check _

theorem readOrganizationId_implements :
    Implements bound readOrganizationId ControlPlaneState.readOrganizationId :=
  readString_implements.bind fun _ => .check _

theorem readProjectId_implements : Implements bound readProjectId ControlPlaneState.readProjectId :=
  readString_implements.bind fun _ => .check _

theorem readOrganization_implements :
    Implements bound readOrganization ControlPlaneState.readOrganization :=
  readOrganizationId_implements.bind fun _ => readString_implements.bind fun _ =>
    readString_implements.bind fun _ => readLifecycle_implements.bind fun _ =>
      readTimestamps_implements.bind fun _ => .check _

theorem readProject_implements : Implements bound readProject ControlPlaneState.readProject :=
  readProjectId_implements.bind fun _ => readOrganizationId_implements.bind fun _ =>
    readString_implements.bind fun _ => readString_implements.bind fun _ =>
      readLifecycle_implements.bind fun _ => readTimestamps_implements.bind fun _ => .check _

theorem readState_implements : Implements bound readState ControlPlaneState.readState :=
  readU32_implements.bind fun organizationCount =>
    (readOrganization_implements.timesDistinct organizationKey _ [] organizationCount).bind fun _ =>
      readU32_implements.bind fun projectCount =>
        (readProject_implements.timesDistinct projectKey _ [] projectCount).bind fun _ => .pure _

theorem decodeState_of_not_overflows {bytes : Bytes} (hbytes : bytes.length < 2 ^ 63)
    (h : ¬Overflows format bytes) :
    decodeState bytes = Checked.returns (ControlPlaneState.decodeState bytes) := by
  have hfile := decodeFile_eq (fun _ => readState_implements) (.corrupt "trailing payload bytes")
    hbytes (decodeFrame_not_overflows (fun _ => rfl) h)
  rw [decodeState, ControlPlaneState.decodeState, ← bind_assoc, hfile]
  cases format.decode bytes with
  | error error => rfl
  | ok payload =>
    rw [except_ok_bind, except_ok_bind]
    cases ControlPlaneState.readState payload with
    | error error => rfl
    | ok pair =>
      obtain ⟨state, rest⟩ := pair
      rw [except_ok_bind, except_ok_bind]
      dsimp only
      split
      · rfl
      · change (Checked.returns ((state.validateLoadedState).mapError LoadError.store) >>= fun _ =>
          Checked.returns (.ok state)) = _
        cases state.validateLoadedState with
        | error error => rfl
        | ok valid => rfl

/-- `decode_state` panics where the length in the header overflows, and nowhere else. -/
theorem decodeState_panics_iff {bytes : Bytes} (hbytes : bytes.length < 2 ^ 63) :
    (decodeState bytes = Checked.panics ↔ Overflows format bytes) ∧
      (¬Overflows format bytes →
        decodeState bytes = Checked.returns (ControlPlaneState.decodeState bytes)) := by
  refine ⟨⟨fun hpanics => ?_, fun h => ?_⟩, decodeState_of_not_overflows hbytes⟩
  · by_contra h
    exact Checked.returns_ne_panics _ ((decodeState_of_not_overflows hbytes h).symm.trans hpanics)
  · rw [decodeState, decodeFrame_overflows h]
    rfl

/-- The checkpoints have the same marks. -/
theorem decodeState_panics_iff_largest :
    decodeState CheckpointFile.Cursor.largestLength = Checked.panics :=
  (decodeState_panics_iff (by decide)).1.mpr ⟨⟨by decide, by decide, by decide⟩, by decide⟩

end ControlPlaneState.Cursor

end Ketebe
