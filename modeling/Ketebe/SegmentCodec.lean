import Ketebe.Lib.FramedFile
import Ketebe.RecordSizes
import Ketebe.Segment

/-!
The file of a segment. A segment built from mutations names every record id
once, which is what the reader checks, so decoding inverts its encoding.
-/
namespace Ketebe

open Lib.ByteCodec Lib.FramedFile Lib.LatestVersion

namespace Segment

/-! ### The ids of a built segment -/

/-- Both lists of a built segment are in the order of their ids. -/
theorem fromMutations_sorted {id : SegmentId} {mutations : List WalMutation} {segment : Segment}
    (h : fromMutations id mutations = .ok segment) :
    (segment.records.Pairwise fun left right => left.id < right.id) ∧
      segment.tombstones.Pairwise fun left right => left.recordId < right.recordId := by
  unfold fromMutations at h
  split at h
  · cases h
  · rename_i first rest
    obtain ⟨draft, hdraft, h⟩ := except_bind_ok.mp h
    cases h
    have hrepresents := (Draft.empty_represents first.collectionId).addAll hdraft
    constructor
    · refine List.pairwise_map.mpr ((Std.ExtTreeMap.ordered_keys_toList).imp_of_mem
        fun {a b} ha hb hlt => ?_)
      rw [Std.ExtTreeMap.mem_toList_iff_getElem?_eq_some] at ha hb
      rw [← ((hrepresents.record _ _).mp ha).1, ← ((hrepresents.record _ _).mp hb).1]
      exact compare_lt_iff_lt.mp hlt
    · exact List.pairwise_map.mpr
        ((Std.ExtTreeMap.ordered_keys_toList).imp fun hlt => compare_lt_iff_lt.mp hlt)

namespace Summarizes

variable {segment : Segment} {mutations : List WalMutation}

theorem mem_records (h : segment.Summarizes mutations) {record : Record} :
    record ∈ segment.records ↔ Latest (writes mutations) record.version := by
  rw [← h.version, versions, List.mem_append]
  constructor
  · exact fun hmem => Or.inl (List.mem_map_of_mem hmem)
  · rintro (hmem | hmem)
    · obtain ⟨other, hother, heq⟩ := List.mem_map.mp hmem
      rwa [← Option.some.inj (congrArg Version.value heq)]
    · obtain ⟨tombstone, -, heq⟩ := List.mem_map.mp hmem
      cases congrArg Version.value heq

theorem mem_tombstones (h : segment.Summarizes mutations) {tombstone : Tombstone} :
    tombstone ∈ segment.tombstones ↔ Latest (writes mutations) tombstone.version := by
  rw [← h.version, versions, List.mem_append]
  constructor
  · exact fun hmem => Or.inr (List.mem_map_of_mem hmem)
  · rintro (hmem | hmem)
    · obtain ⟨record, -, heq⟩ := List.mem_map.mp hmem
      cases congrArg Version.value heq
    · obtain ⟨⟨recordId, sequence⟩, hother, heq⟩ := List.mem_map.mp hmem
      cases tombstone
      cases congrArg Version.key heq
      cases congrArg Version.sequence heq
      exact hother

/-- No id has a record and a tombstone: one of them would not be the latest. -/
theorem disjoint (h : segment.Summarizes mutations) {record : Record} {tombstone : Tombstone}
    (hrecord : record ∈ segment.records) (htombstone : tombstone ∈ segment.tombstones) :
    tombstone.recordId ≠ record.id := by
  intro hid
  have hfirst := h.mem_records.mp hrecord
  have hsecond := h.mem_tombstones.mp htombstone
  have hsequence : tombstone.version.sequence = record.version.sequence :=
    le_antisymm (hfirst.2 _ hsecond.1 hid) (hsecond.2 _ hfirst.1 hid.symm)
  have heq := functional_writes h.increasing _ hsecond.1 _ hfirst.1 hid hsequence
  cases congrArg Version.value heq

end Summarizes

theorem nodup_ids {id : SegmentId} {mutations : List WalMutation} {segment : Segment}
    (h : fromMutations id mutations = .ok segment) :
    (segment.records.map Record.id ++ segment.tombstones.map Tombstone.recordId).Nodup := by
  obtain ⟨hrecords, htombstones⟩ := fromMutations_sorted h
  obtain ⟨-, hsummary⟩ := fromMutations_summarizes h
  refine List.nodup_append.mpr ⟨?_, ?_, ?_⟩
  · exact List.pairwise_map.mpr (hrecords.imp fun hlt => ne_of_lt hlt)
  · exact List.pairwise_map.mpr (htombstones.imp fun hlt => ne_of_lt hlt)
  · intro key hkey other hother
    obtain ⟨record, hrecord, rfl⟩ := List.mem_map.mp hkey
    obtain ⟨tombstone, htombstone, rfl⟩ := List.mem_map.mp hother
    exact (hsummary.disjoint hrecord htombstone).symm

end Segment

namespace SegmentFile

/-! ### The format -/

def magic : Bytes := [0x4b, 0x54, 0x53, 0x47]

def version : UInt8 := 1

def format : Format SegmentError where
  magic := magic
  version := version
  checksum := Wal.crc32
  totalLen payloadLen :=
    if headerLen + payloadLen < 256 ^ 8 then .ok (headerLen + payloadLen)
    else .error (.corrupt "segment length overflow")
  truncated := .corrupt "truncated header"
  invalidMagic := .invalidMagic
  unsupportedVersion := .unsupportedVersion
  lengthMismatch := .corrupt "segment length mismatch"
  checksumMismatch := .checksumMismatch

/-- The segment codes strings and records as the log does, with the same texts.
These coders raise no other errors than the first two. -/
def ofWal : WalError → SegmentError
  | .corruptFrame message => .corrupt message
  | .domain message => .domain message
  | _ => .io

def writeLen (message : String) (len : ℕ) : Except SegmentError Bytes :=
  (Wal.writeLen message len).mapError ofWal

def writeString (value : String) : Except SegmentError Bytes :=
  (Wal.writeString value).mapError ofWal

def writeRecordId (id : RecordId) : Except SegmentError Bytes :=
  (Wal.writeRecordId id).mapError ofWal

def writeRecord (record : Record) : Except SegmentError Bytes := do
  let id ← writeRecordId record.id
  let vector ← (Wal.writeVector record.vector).mapError ofWal
  let metadata ← (Wal.writeMetadata record.metadata).mapError ofWal
  pure (id ++ (leBytes 8 record.sequenceNumber.toNat ++ (vector ++ metadata)))

def writeTombstone (tombstone : Tombstone) : Except SegmentError Bytes := do
  let id ← writeRecordId tombstone.recordId
  pure (id ++ leBytes 8 tombstone.sequenceNumber.toNat)

def encodePayload (segment : Segment) : Except SegmentError Bytes := do
  let collection ← writeString segment.collectionId.asStr
  let recordCount ← writeLen "too many records" segment.records.length
  let records ← encodeAll writeRecord segment.records
  let tombstoneCount ← writeLen "too many tombstones" segment.tombstones.length
  let tombstones ← encodeAll writeTombstone segment.tombstones
  pure (collection ++ (leBytes 8 segment.id.toNat ++ (leBytes 8 segment.minSequence.toNat ++
    (leBytes 8 segment.maxSequence.toNat ++ (recordCount ++ (records ++
      (tombstoneCount ++ tombstones)))))))

def encodeSegment (segment : Segment) : Except SegmentError Bytes := do
  let payload ← encodePayload segment
  if payload.length < 256 ^ 8 then pure (format.encode payload)
  else throw (.corrupt "segment payload too large")

def readU32 : Reader SegmentError ℕ := Wal.readU32.mapError ofWal

def readU64 : Reader SegmentError UInt64 := Wal.readU64.mapError ofWal

def readRecordId : Reader SegmentError RecordId := Wal.readRecordId.mapError ofWal

def readCollectionId : Reader SegmentError CollectionId := do
  let name ← Wal.readString.mapError ofWal
  (Wal.liftDomain (CollectionId.new name)).mapError ofWal

def readRecord : Reader SegmentError Record := do
  let id ← readRecordId
  let sequenceNumber ← readU64
  let vector ← Wal.readVector.mapError ofWal
  let metadata ← Wal.readMetadata.mapError ofWal
  pure ⟨id, vector, metadata, sequenceNumber⟩

/-- The overlap with the records is checked before the sequence number is read. -/
def readTombstone (seen : List RecordId) : Reader SegmentError Tombstone := do
  let recordId ← readRecordId
  if recordId ∈ seen then Reader.fail (.corrupt "record and tombstone overlap")
  else do
    let sequenceNumber ← readU64
    pure ⟨recordId, sequenceNumber⟩

def checkRange (minSequence maxSequence : SequenceNumber) : Except SegmentError Unit :=
  if maxSequence < minSequence then .error (.corrupt "invalid sequence range") else .ok ()

/-- The records and tombstones behind the sequence range. -/
def readEntries : Reader SegmentError (List Record × List Tombstone) := do
  let recordCount ← readU32
  let records ← Reader.timesDistinct readRecord Record.id (.corrupt "duplicate record id") []
    recordCount
  let tombstoneCount ← readU32
  let tombstones ← Reader.times (readTombstone (records.map Record.id)) tombstoneCount
  pure (records, tombstones)

def readSegment : Reader SegmentError Segment := do
  let collectionId ← readCollectionId
  let id ← readU64
  let minSequence ← readU64
  let maxSequence ← readU64
  Reader.check (checkRange minSequence maxSequence)
  let entries ← readEntries
  pure ⟨id, collectionId, minSequence, maxSequence, entries.1, entries.2⟩

def decodeSegment (bytes : Bytes) : Except SegmentError Segment := do
  let payload ← format.decode bytes
  let (segment, rest) ← readSegment payload
  if rest ≠ [] then throw (.corrupt "trailing payload bytes")
  else pure segment

/-! ### Reading inverts writing -/

theorem writeLen_ok {message : String} {len : ℕ} {bytes : Bytes}
    (h : writeLen message len = .ok bytes) : bytes = leBytes 4 len ∧ len < 256 ^ 4 :=
  Wal.writeLen_ok (mapError_ok_iff.mp h)

theorem readU32_reads {len : ℕ} (h : len < 256 ^ 4) : Reads readU32 (leBytes 4 len) len :=
  (Wal.readU32_reads len h).mapError ofWal

theorem readU64_reads (value : UInt64) : Reads readU64 (leBytes 8 value.toNat) value :=
  (Wal.readU64_reads value).mapError ofWal

theorem readRecordId_reads {id : RecordId} {bytes : Bytes} (h : writeRecordId id = .ok bytes) :
    Reads readRecordId bytes id :=
  (Wal.readRecordId_reads (mapError_ok_iff.mp h)).mapError ofWal

theorem readCollectionId_reads {collectionId : CollectionId} {bytes : Bytes}
    (h : writeString collectionId.asStr = .ok bytes) :
    Reads readCollectionId bytes collectionId := by
  have hname := (Wal.readString_reads (mapError_ok_iff.mp h)).mapError ofWal
  have hid := (Wal.liftDomain_reads (CollectionId.new_asStr collectionId)).mapError ofWal
  have hread := hname.bind (f := fun name =>
    (Wal.liftDomain (CollectionId.new name)).mapError ofWal) hid
  rwa [List.append_nil] at hread

theorem readRecord_reads {record : Record} {bytes : Bytes} (h : writeRecord record = .ok bytes) :
    Reads readRecord bytes record := by
  obtain ⟨id, hid, h⟩ := except_bind_ok.mp h
  obtain ⟨vector, hvector, h⟩ := except_bind_ok.mp h
  obtain ⟨metadata, hmetadata, h⟩ := except_bind_ok.mp h
  cases h
  have hvector' := (Wal.readVector_reads (mapError_ok_iff.mp hvector)).mapError ofWal
  have hmetadata' := (Wal.readMetadata_reads (mapError_ok_iff.mp hmetadata)).mapError ofWal
  exact (readRecordId_reads hid).bind
    ((readU64_reads record.sequenceNumber).bind (hvector'.bind hmetadata'.map))

theorem readTombstone_reads {tombstone : Tombstone} {seen : List RecordId} {bytes : Bytes}
    (hseen : tombstone.recordId ∉ seen) (h : writeTombstone tombstone = .ok bytes) :
    Reads (readTombstone seen) bytes tombstone := by
  obtain ⟨id, hid, h⟩ := except_bind_ok.mp h
  cases h
  refine (readRecordId_reads hid).bind ?_
  rw [if_neg hseen]
  exact (readU64_reads tombstone.sequenceNumber).map

theorem readEntries_reads {records : List Record} {tombstones : List Tombstone}
    (hids : (records.map Record.id ++ tombstones.map Tombstone.recordId).Nodup)
    {recordCount recordBytes tombstoneCount tombstoneBytes : Bytes}
    (hrecordCount : writeLen "too many records" records.length = .ok recordCount)
    (hrecords : encodeAll writeRecord records = .ok recordBytes)
    (htombstoneCount : writeLen "too many tombstones" tombstones.length = .ok tombstoneCount)
    (htombstones : encodeAll writeTombstone tombstones = .ok tombstoneBytes) :
    Reads readEntries (recordCount ++ (recordBytes ++ (tombstoneCount ++ tombstoneBytes)))
      (records, tombstones) := by
  obtain ⟨rfl, hrecordLen⟩ := writeLen_ok hrecordCount
  obtain ⟨rfl, htombstoneLen⟩ := writeLen_ok htombstoneCount
  obtain ⟨hdistinct, -, hdisjoint⟩ := List.nodup_append.mp hids
  have hreadRecords : Reads (Reader.timesDistinct readRecord Record.id
      (SegmentError.corrupt "duplicate record id") [] records.length) recordBytes records :=
    Reads.encodeAll_distinct (fun record _ encoding hrecord => readRecord_reads hrecord)
      hdistinct (fun _ _ => List.not_mem_nil) hrecords
  have hreadTombstones : Reads (Reader.times (readTombstone (records.map Record.id))
      tombstones.length) tombstoneBytes tombstones :=
    Reads.encodeAll (fun tombstone htombstone encoding hencoding => readTombstone_reads (fun hmem =>
      hdisjoint _ hmem _ (List.mem_map_of_mem htombstone) rfl) hencoding) htombstones
  exact (readU32_reads hrecordLen).bind (hreadRecords.bind
    ((readU32_reads htombstoneLen).bind hreadTombstones.map))

theorem readSegment_reads {segment : Segment} {payload : Bytes}
    (hrange : segment.minSequence ≤ segment.maxSequence)
    (hids : (segment.records.map Record.id ++ segment.tombstones.map Tombstone.recordId).Nodup)
    (h : encodePayload segment = .ok payload) : Reads readSegment payload segment := by
  obtain ⟨collection, hcollection, h⟩ := except_bind_ok.mp h
  obtain ⟨recordCount, hrecordCount, h⟩ := except_bind_ok.mp h
  obtain ⟨records, hrecords, h⟩ := except_bind_ok.mp h
  obtain ⟨tombstoneCount, htombstoneCount, h⟩ := except_bind_ok.mp h
  obtain ⟨tombstones, htombstones, h⟩ := except_bind_ok.mp h
  cases h
  have hcheck : Reads (Reader.check (checkRange segment.minSequence segment.maxSequence)) [] () :=
    Reads.lift (if_neg (not_lt.mpr hrange))
  have hentries := readEntries_reads hids hrecordCount hrecords htombstoneCount htombstones
  exact (readCollectionId_reads hcollection).bind ((readU64_reads segment.id).bind
    ((readU64_reads segment.minSequence).bind ((readU64_reads segment.maxSequence).bind
      (hcheck.bind hentries.map))))

/-! ### Sizes -/

/-- Every length in the segment fits into 32 bits, and the file into 64. -/
structure Fits (segment : Segment) : Prop where
  records : segment.records.length < 256 ^ 4
  record : ∀ record ∈ segment.records, RecordFits record
  tombstones : segment.tombstones.length < 256 ^ 4
  tombstone : ∀ tombstone ∈ segment.tombstones, IdFits tombstone.recordId
  payload : ∀ payload, encodePayload segment = .ok payload →
    headerLen + payload.length < 256 ^ 8

theorem lift_exists {α : Type} {result : Except WalError α} (h : ∃ value, result = .ok value) :
    ∃ value, result.mapError ofWal = .ok value := by
  obtain ⟨value, hvalue⟩ := h
  exact ⟨value, mapError_ok_iff.mpr hvalue⟩

theorem writeRecord_exists {record : Record} (h : RecordFits record) :
    ∃ bytes, writeRecord record = .ok bytes := by
  obtain ⟨id, hid⟩ := lift_exists (Wal.writeRecordId_exists h.id)
  obtain ⟨vector, hvector⟩ := lift_exists (Wal.writeVector_exists h.vector)
  obtain ⟨metadata, hmetadata⟩ := lift_exists (Wal.writeMetadata_exists h.metadata)
  exact ⟨_, except_bind_ok.mpr ⟨id, hid, except_bind_ok.mpr ⟨vector, hvector,
    except_bind_ok.mpr ⟨metadata, hmetadata, rfl⟩⟩⟩⟩

theorem writeTombstone_exists {tombstone : Tombstone} (h : IdFits tombstone.recordId) :
    ∃ bytes, writeTombstone tombstone = .ok bytes := by
  obtain ⟨id, hid⟩ := lift_exists (Wal.writeRecordId_exists h)
  exact ⟨_, except_bind_ok.mpr ⟨id, hid, rfl⟩⟩

theorem encodePayload_exists {segment : Segment} (h : Fits segment) :
    ∃ payload, encodePayload segment = .ok payload := by
  obtain ⟨collection, hcollection⟩ :=
    lift_exists (Wal.writeString_exists segment.collectionId.length_asStr)
  obtain ⟨recordCount, hrecordCount⟩ :=
    lift_exists (Wal.writeLen_exists "too many records" h.records)
  obtain ⟨records, hrecords⟩ :=
    encodeAll_exists fun record hrecord => writeRecord_exists (h.record record hrecord)
  obtain ⟨tombstoneCount, htombstoneCount⟩ :=
    lift_exists (Wal.writeLen_exists "too many tombstones" h.tombstones)
  obtain ⟨tombstones, htombstones⟩ :=
    encodeAll_exists fun tombstone htombstone =>
      writeTombstone_exists (h.tombstone tombstone htombstone)
  exact ⟨_, except_bind_ok.mpr ⟨collection, hcollection, except_bind_ok.mpr ⟨recordCount,
    hrecordCount, except_bind_ok.mpr ⟨records, hrecords, except_bind_ok.mpr ⟨tombstoneCount,
      htombstoneCount, except_bind_ok.mpr ⟨tombstones, htombstones, rfl⟩⟩⟩⟩⟩⟩

/-- Decoding inverts the encoding of a segment with distinct ids. -/
theorem decodeSegment_encodeSegment {segment : Segment} (hfits : Fits segment)
    (hrange : segment.minSequence ≤ segment.maxSequence)
    (hids : (segment.records.map Record.id ++ segment.tombstones.map Tombstone.recordId).Nodup) :
    ∃ bytes, encodeSegment segment = .ok bytes ∧ decodeSegment bytes = .ok segment := by
  obtain ⟨payload, hpayload⟩ := encodePayload_exists hfits
  have htotal := hfits.payload payload hpayload
  have hlength : payload.length < 256 ^ 8 := by omega
  refine ⟨format.encode payload, ?_, ?_⟩
  · rw [encodeSegment, hpayload, except_ok_bind, if_pos hlength]
    rfl
  · have hframe : format.decode (format.encode payload) = .ok payload :=
      Format.decode_encode rfl hlength (if_pos htotal)
    have hread := readSegment_reads hrange hids hpayload []
    rw [List.append_nil] at hread
    rw [decodeSegment, hframe, except_ok_bind, hread, except_ok_bind]
    rfl

end SegmentFile

namespace Segment

/-- Mutations of one collection in sequence order make a segment: it holds the
latest of every id and no id twice, spans their sequence numbers, and its file
is read back. -/
theorem fromMutations_roundTrip (id : SegmentId) {mutations : List WalMutation}
    {collectionId : CollectionId} (hnonempty : mutations ≠ [])
    (hincreasing : mutations.Pairwise fun first second =>
      first.sequenceNumber < second.sequenceNumber)
    (hcollection : ∀ mutation ∈ mutations, mutation.collectionId = collectionId) :
    ∃ segment, fromMutations id mutations = .ok segment ∧ segment.id = id ∧
      segment.collectionId = collectionId ∧
      (segment.records.map Record.id ++ segment.tombstones.map Tombstone.recordId).Nodup ∧
      (∀ record, record ∈ segment.records ↔ Latest (writes mutations) record.version) ∧
      (∀ tombstone, tombstone ∈ segment.tombstones ↔
        Latest (writes mutations) tombstone.version) ∧
      mutations.head?.map WalMutation.sequenceNumber = some segment.minSequence ∧
      mutations.getLast?.map WalMutation.sequenceNumber = some segment.maxSequence ∧
      (SegmentFile.Fits segment → ∃ bytes, SegmentFile.encodeSegment segment = .ok bytes ∧
        SegmentFile.decodeSegment bytes = .ok segment) := by
  have hchecked : Wal.Increasing none mutations :=
    Wal.increasing_iff_pairwise.mpr ⟨fun _ _ => nofun, hincreasing⟩
  obtain ⟨segment, hsegment, hscollection⟩ :=
    fromMutations_exists id hnonempty hchecked hcollection
  obtain ⟨hid, hsummary⟩ := fromMutations_summarizes hsegment
  have hlast : mutations.getLast?.map WalMutation.sequenceNumber = some segment.maxSequence := by
    rw [Wal.getLast?_sequenceNumber, hsummary.maximum]
  have hids := nodup_ids hsegment
  refine ⟨segment, hsegment, hid, hscollection, hids, fun _ => hsummary.mem_records,
    fun _ => hsummary.mem_tombstones, hsummary.minimum.symm, hlast, fun hfits => ?_⟩
  exact SegmentFile.decodeSegment_encodeSegment hfits (hsummary.minSequence_le) hids

/-- A record is written and deleted, another one written. -/
def sampleMutations : List WalMutation :=
  [.upsert ⟨"a", CollectionId.validate_a⟩ ⟨.unsigned 7, ⟨[], Vector.finite_nil⟩, Metadata.empty, 1⟩,
    .delete ⟨"a", CollectionId.validate_a⟩ (.unsigned 7) 2,
    .upsert ⟨"a", CollectionId.validate_a⟩ ⟨.unsigned 8, ⟨[], Vector.finite_nil⟩, Metadata.empty, 3⟩]

def sampleSegment : Segment :=
  ⟨1, ⟨"a", CollectionId.validate_a⟩, 1, 3, [⟨.unsigned 8, ⟨[], Vector.finite_nil⟩, Metadata.empty, 3⟩], [⟨.unsigned 7, 2⟩]⟩

theorem fromMutations_sample : fromMutations 1 sampleMutations = .ok sampleSegment := rfl

theorem fits_sampleSegment : SegmentFile.Fits sampleSegment := by
  refine ⟨by decide, ?_, by decide, ?_, fun payload h => ?_⟩
  · intro record hrecord
    rw [List.mem_singleton.mp hrecord]
    exact ⟨trivial, by decide, by decide, trivial⟩
  · intro tombstone htombstone
    rw [List.mem_singleton.mp htombstone]
    trivial
  · have hsize : (SegmentFile.encodePayload sampleSegment).map List.length = .ok 79 := rfl
    rw [h] at hsize
    have hlength : payload.length = 79 := Except.ok.inj hsize
    rw [hlength, headerLen]
    omega

theorem fromMutations_roundTrip_sample : ∃ bytes,
    SegmentFile.encodeSegment sampleSegment = .ok bytes ∧
      SegmentFile.decodeSegment bytes = .ok sampleSegment := by
  obtain ⟨segment, hsegment, -, -, -, -, -, -, -, hfile⟩ :=
    @fromMutations_roundTrip 1 sampleMutations ⟨"a", CollectionId.validate_a⟩
      nofun (by simp [sampleMutations, WalMutation.sequenceNumber])
      (by simp [sampleMutations, WalMutation.collectionId])
  obtain rfl := Except.ok.inj (hsegment.symm.trans fromMutations_sample)
  exact hfile fits_sampleSegment

end Segment

end Ketebe
