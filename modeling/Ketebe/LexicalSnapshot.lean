import Ketebe.Lib.FramedFile
import Ketebe.LexicalIndex
import Ketebe.SegmentStore
import Ketebe.WalRoundTrip

/-!
The file of a lexical index. It keeps ids, sequence numbers, lengths and postings
but no records, which the reader takes from the segments. Decoding inverts the
encoding of every index that a build has made.
-/
namespace Ketebe

open Lib.ByteCodec Lib.FramedFile

structure SnapshotDocument where
  id : RecordId
  sequence : SequenceNumber
  length : UInt32

/-- The source's `Snapshot`. -/
structure LexicalSnapshot where
  fingerprint : UInt64
  collectionId : CollectionId
  fields : List FieldPath
  analyzer : LexicalAnalyzerConfig
  documents : List SnapshotDocument
  postings : Postings
  averageLength : F32

namespace LexicalSnapshot

def fromIndex (index : LexicalIndex) : LexicalSnapshot where
  fingerprint := index.sourceFingerprint
  collectionId := index.collectionId
  fields := index.fields
  analyzer := index.analyzer
  documents := index.documents.map fun document =>
    ⟨document.record.id, document.record.sequenceNumber, document.length⟩
  postings := index.postings
  averageLength := index.averageLength

/-- A document with its visible record, if that still has the sequence number. -/
def hydrateDocument (visible : Std.ExtTreeMap RecordId Record compare)
    (document : SnapshotDocument) : Option IndexedDocument :=
  match visible[document.id]? with
  | none => none
  | some record =>
      if record.sequenceNumber ≠ document.sequence then none else some ⟨record, document.length⟩

/-- The index of a snapshot over these segments, unless it is stale. -/
def hydrate (snapshot : LexicalSnapshot) (segments : List Segment) (collectionId : CollectionId) :
    Option LexicalIndex :=
  let visible := foldVisibleRecords segments collectionId
  match snapshot.documents.mapM (hydrateDocument visible) with
  | none => none
  | some documents =>
      if documents.length ≠ visible.size then none
      else some {
        collectionId := snapshot.collectionId
        fields := snapshot.fields
        sourceFingerprint := snapshot.fingerprint
        analyzer := snapshot.analyzer
        documents := documents
        postings := snapshot.postings
        averageLength := snapshot.averageLength }

end LexicalSnapshot

/-! ### The fingerprint -/

/-- One step of FNV-1a for every byte. -/
def hashBytes (hash : UInt64) (bytes : Bytes) : UInt64 :=
  bytes.foldl (fun hash byte => (hash ^^^ byte.toUInt64) * 0x100000001b3) hash

def lexicalAnalyzerVersion : UInt8 := 1

def lexicalIndexVersion : UInt8 := 2

def analyzerKindTag : LexicalAnalyzerKind → UInt8
  | .standard => 1

def boolByte (value : Bool) : UInt8 := if value then 1 else 0

def lexicalCheckpointFingerprint (checkpoint : Checkpoint) (fields : List FieldPath)
    (analyzer : LexicalAnalyzerConfig) : UInt64 :=
  hashBytes 0xcbf29ce484222325 (utf8 checkpoint.collectionId.asStr ++
    leBytes 8 checkpoint.sequenceNumber.toNat ++
    checkpoint.segments.flatMap (fun segment => leBytes 8 segment.toNat) ++
    [lexicalAnalyzerVersion, lexicalIndexVersion] ++
    [analyzerKindTag analyzer.kind] ++ [boolByte analyzer.lowercase] ++
    leBytes 4 defaultBm25K1.bits.toNat ++ leBytes 4 defaultBm25B.bits.toNat ++
    fields.flatMap fun field =>
      0xff :: field.segments.flatMap fun segment => utf8 segment ++ [0])

namespace LexicalSnapshotFile

/-! ### The format -/

def format : Format LexicalIndexError where
  magic := [0x4b, 0x54, 0x4c, 0x49]
  version := lexicalIndexVersion
  checksum := Wal.crc32
  totalLen payloadLen :=
    if headerLen + payloadLen < 256 ^ 8 then .ok (headerLen + payloadLen)
    else .error (.corrupt "lexical snapshot length overflow")
  truncated := .corrupt "truncated lexical header"
  invalidMagic := .invalidMagic
  unsupportedVersion := .unsupportedVersion
  lengthMismatch := .corrupt "lexical snapshot length mismatch"
  checksumMismatch := .checksumMismatch

/-- The texts of this file for what the cursor of the log reports. -/
def cursorText (message : String) : String :=
  if message = "unexpected payload end" then "truncated lexical payload"
  else if message = "invalid UTF-8" then "invalid UTF-8 in lexical snapshot"
  else if message = "invalid record id tag" then "unknown record id tag"
  else if message = "string too large" then "lexical string too large"
  else message

/-- Strings, ids and words are coded as in the log. These coders raise no other
errors than the first two. -/
def ofWal : WalError → LexicalIndexError
  | .corruptFrame message => .corrupt (cursorText message)
  | .domain message => .domain message
  | _ => .io ""

def writeLen (message : String) (len : ℕ) : Except LexicalIndexError Bytes :=
  (Wal.writeLen message len).mapError ofWal

def writeString (value : String) : Except LexicalIndexError Bytes :=
  (Wal.writeString value).mapError ofWal

def writeField (field : FieldPath) : Except LexicalIndexError Bytes := do
  let count ← writeLen "too many field path segments" field.segments.length
  let segments ← encodeAll writeString field.segments
  pure (count ++ segments)

def writeDocument (document : SnapshotDocument) : Except LexicalIndexError Bytes := do
  let id ← (Wal.writeRecordId document.id).mapError ofWal
  pure (id ++ (leBytes 8 document.sequence.toNat ++ leBytes 4 document.length.toNat))

def postingBytes (posting : Posting) : Bytes :=
  leBytes 4 posting.document.toNat ++ leBytes 4 posting.termFrequency.toNat

def writeTerm (entry : String × List Posting) : Except LexicalIndexError Bytes := do
  let term ← writeString entry.1
  let count ← writeLen "too many postings" entry.2.length
  pure (term ++ (count ++ entry.2.flatMap postingBytes))

def encodePayload (snapshot : LexicalSnapshot) : Except LexicalIndexError Bytes := do
  let collection ← writeString snapshot.collectionId.asStr
  let fieldCount ← writeLen "too many lexical fields" snapshot.fields.length
  let fields ← encodeAll writeField snapshot.fields
  let documentCount ← writeLen "too many lexical documents" snapshot.documents.length
  let documents ← encodeAll writeDocument snapshot.documents
  let termCount ← writeLen "too many lexical terms" snapshot.postings.size
  let terms ← encodeAll writeTerm snapshot.postings.toList
  pure (leBytes 8 snapshot.fingerprint.toNat ++ (collection ++ (fieldCount ++ (fields ++
    ([analyzerKindTag snapshot.analyzer.kind] ++ ([boolByte snapshot.analyzer.lowercase] ++
      (leBytes 4 snapshot.averageLength.bits.toNat ++ (documentCount ++ (documents ++
        (termCount ++ terms))))))))))

/-- No file of 2^64 bytes or more can be allocated. -/
def encodeSnapshot (snapshot : LexicalSnapshot) : Except LexicalIndexError Bytes := do
  let payload ← encodePayload snapshot
  if headerLen + payload.length < 256 ^ 8 then pure (format.encode payload)
  else throw (.corrupt "lexical payload too large")

def readU8 : Reader LexicalIndexError UInt8 := Wal.readU8.mapError ofWal

def readU32 : Reader LexicalIndexError ℕ := Wal.readU32.mapError ofWal

def readU64 : Reader LexicalIndexError UInt64 := Wal.readU64.mapError ofWal

def readString : Reader LexicalIndexError String := Wal.readString.mapError ofWal

def readWord : Reader LexicalIndexError UInt32 := do
  let value ← readU32
  pure (UInt32.ofNat value)

def readCollectionId : Reader LexicalIndexError CollectionId := do
  let name ← readString
  (Wal.liftDomain (CollectionId.new name)).mapError ofWal

def readField : Reader LexicalIndexError FieldPath := do
  let count ← readU32
  let segments ← Reader.times readString count
  Reader.check ((FieldPath.new segments).mapError fun error => .domain error.display)

def readFields : Reader LexicalIndexError (List FieldPath) := do
  let count ← readU32
  Reader.times readField count

def analyzerKind (tag : UInt8) : Except LexicalIndexError LexicalAnalyzerKind :=
  if tag = 1 then .ok .standard else .error (.corrupt "unknown lexical analyzer kind")

def lowercaseFlag (flag : UInt8) : Except LexicalIndexError Bool :=
  if flag = 0 then .ok false
  else if flag = 1 then .ok true
  else .error (.corrupt "invalid lexical lowercase flag")

def readAnalyzer : Reader LexicalIndexError LexicalAnalyzerConfig := do
  let tag ← readU8
  let kind ← Reader.check (analyzerKind tag)
  let flag ← readU8
  let lowercase ← Reader.check (lowercaseFlag flag)
  pure ⟨kind, lowercase⟩

def checkAverage (average : F32) : Except LexicalIndexError F32 :=
  if !average.isFinite || average.isNegative then
    .error (.corrupt "invalid average document length")
  else .ok average

def readAverage : Reader LexicalIndexError F32 := do
  let bits ← readWord
  Reader.check (checkAverage ⟨bits⟩)

def readDocument : Reader LexicalIndexError SnapshotDocument := do
  let id ← Wal.readRecordId.mapError ofWal
  let sequence ← readU64
  let length ← readWord
  pure ⟨id, sequence, length⟩

def readDocuments : Reader LexicalIndexError (List SnapshotDocument) := do
  let count ← readU32
  Reader.times readDocument count

/-- The loop over the postings of a term, with the document of the previous one. -/
def readPostings (documentCount : ℕ) : Option UInt32 → ℕ → Reader LexicalIndexError (List Posting)
  | _, 0 => pure []
  | previous, count + 1 => do
    let document ← readWord
    let termFrequency ← readWord
    if termFrequency = 0 ∨ documentCount ≤ document.toNat then
      Reader.fail (.corrupt "invalid lexical posting")
    else if previous.any fun value => document ≤ value then
      Reader.fail (.corrupt "lexical postings are not ordered")
    else do
      let rest ← readPostings documentCount (some document) count
      pure (⟨document, termFrequency⟩ :: rest)

def readTerm (documentCount : ℕ) : Reader LexicalIndexError (String × List Posting) := do
  let term ← readString
  let count ← readU32
  let list ← readPostings documentCount none count
  pure (term, list)

def readTerms (documentCount : ℕ) : Reader LexicalIndexError Postings := do
  let count ← readU32
  let entries ← Reader.timesDistinct (readTerm documentCount) Prod.fst
    (.corrupt "duplicate lexical term") [] count
  pure (Std.ExtTreeMap.ofList entries compare)

def readSnapshot : Reader LexicalIndexError LexicalSnapshot := do
  let fingerprint ← readU64
  let collectionId ← readCollectionId
  let fields ← readFields
  let analyzer ← readAnalyzer
  let averageLength ← readAverage
  let documents ← readDocuments
  let postings ← readTerms documents.length
  pure ⟨fingerprint, collectionId, fields, analyzer, documents, postings, averageLength⟩

def decodeSnapshot (bytes : Bytes) : Except LexicalIndexError LexicalSnapshot := do
  let payload ← format.decode bytes
  let (snapshot, rest) ← readSnapshot payload
  if rest ≠ [] then throw (.corrupt "trailing lexical payload bytes")
  else pure snapshot

/-! ### Reading inverts writing -/

theorem writeLen_ok {message : String} {len : ℕ} {bytes : Bytes}
    (h : writeLen message len = .ok bytes) : bytes = leBytes 4 len ∧ len < 256 ^ 4 :=
  Wal.writeLen_ok (mapError_ok_iff.mp h)

theorem readU8_reads (byte : UInt8) : Reads readU8 [byte] byte :=
  (Wal.readU8_reads byte).mapError ofWal

theorem readU32_reads {len : ℕ} (h : len < 256 ^ 4) : Reads readU32 (leBytes 4 len) len :=
  (Wal.readU32_reads len h).mapError ofWal

theorem readU64_reads (value : UInt64) : Reads readU64 (leBytes 8 value.toNat) value :=
  (Wal.readU64_reads value).mapError ofWal

theorem readWord_reads (value : UInt32) : Reads readWord (leBytes 4 value.toNat) value := by
  have h := (readU32_reads value.toNat_lt).map (f := UInt32.ofNat)
  rwa [UInt32.ofNat_toNat] at h

theorem readString_reads {value : String} {bytes : Bytes} (h : writeString value = .ok bytes) :
    Reads readString bytes value :=
  (Wal.readString_reads (mapError_ok_iff.mp h)).mapError ofWal

theorem readCollectionId_reads {collectionId : CollectionId} {bytes : Bytes}
    (h : writeString collectionId.asStr = .ok bytes) :
    Reads readCollectionId bytes collectionId := by
  have hid := (Wal.liftDomain_reads (CollectionId.new_asStr collectionId)).mapError ofWal
  have hread := (readString_reads h).bind (f := fun name =>
    (Wal.liftDomain (CollectionId.new name)).mapError ofWal) hid
  rwa [List.append_nil] at hread

theorem new_segments (field : FieldPath) : FieldPath.new field.segments = .ok field := by
  rw [FieldPath.segments, FieldPath.new, dif_pos field.nonempty]

theorem readField_reads {field : FieldPath} {bytes : Bytes} (h : writeField field = .ok bytes) :
    Reads readField bytes field := by
  obtain ⟨count, hcount, h⟩ := except_bind_ok.mp h
  obtain ⟨segments, hsegments, h⟩ := except_bind_ok.mp h
  cases h
  obtain ⟨rfl, hlt⟩ := writeLen_ok hcount
  have hread : Reads (Reader.times readString field.segments.length) segments field.segments :=
    Reads.encodeAll (fun segment _ encoding hsegment => readString_reads hsegment) hsegments
  refine (readU32_reads hlt).bind (hread.check ?_)
  rw [new_segments]
  rfl

theorem readFields_reads {fields : List FieldPath} {count bytes : Bytes}
    (hcount : writeLen "too many lexical fields" fields.length = .ok count)
    (h : encodeAll writeField fields = .ok bytes) : Reads readFields (count ++ bytes) fields := by
  obtain ⟨rfl, hlt⟩ := writeLen_ok hcount
  exact (readU32_reads hlt).bind (Reads.encodeAll
    (fun field _ encoding hfield => readField_reads hfield) h)

theorem readAnalyzer_reads (analyzer : LexicalAnalyzerConfig) :
    Reads readAnalyzer ([analyzerKindTag analyzer.kind] ++ [boolByte analyzer.lowercase])
      analyzer := by
  obtain ⟨⟨⟩, lowercase⟩ := analyzer
  have hflag : lowercaseFlag (boolByte lowercase) = .ok lowercase := by cases lowercase <;> rfl
  have hrest := ((readU8_reads (boolByte lowercase)).bind (f := fun flag => do
    let lowercase ← Reader.check (lowercaseFlag flag)
    pure (⟨.standard, lowercase⟩ : LexicalAnalyzerConfig)) (Reads.lift hflag).map)
  have hkind : Reads (Reader.check (analyzerKind 1)) [] LexicalAnalyzerKind.standard :=
    Reads.lift rfl
  rw [List.append_nil] at hrest
  exact (readU8_reads 1).bind (hkind.bind hrest)

theorem checkAverage_ok {average : F32} (h : average.bits < 0x7f800000) :
    checkAverage average = .ok average := by
  have hlt := UInt32.lt_iff_toNat_lt.mp h
  have hbound : (0x7f800000 : UInt32).toNat = 0x7f800000 := rfl
  have hsign : (0x80000000 : UInt32).toNat = 0x80000000 := rfl
  rw [hbound] at hlt
  have hfinite : average.isFinite = true := by
    rw [F32.isFinite, bne_iff_ne]
    omega
  have hnegative : average.isNegative = false := by
    rw [F32.isNegative, Bool.and_eq_false_iff, decide_eq_false_iff_not, UInt32.lt_iff_toNat_lt, hsign]
    exact Or.inl (by omega)
  rw [checkAverage, hfinite, hnegative]
  rfl

theorem readAverage_reads {average : F32} (h : average.bits < 0x7f800000) :
    Reads readAverage (leBytes 4 average.bits.toNat) average :=
  (readWord_reads average.bits).check (f := fun bits => checkAverage ⟨bits⟩) (checkAverage_ok h)

theorem readDocument_reads {document : SnapshotDocument} {bytes : Bytes}
    (h : writeDocument document = .ok bytes) : Reads readDocument bytes document := by
  obtain ⟨id, hid, h⟩ := except_bind_ok.mp h
  cases h
  have hid := (Wal.readRecordId_reads (mapError_ok_iff.mp hid)).mapError ofWal
  exact hid.bind ((readU64_reads document.sequence).bind (readWord_reads document.length).map)

theorem readDocuments_reads {documents : List SnapshotDocument} {count bytes : Bytes}
    (hcount : writeLen "too many lexical documents" documents.length = .ok count)
    (h : encodeAll writeDocument documents = .ok bytes) :
    Reads readDocuments (count ++ bytes) documents := by
  obtain ⟨rfl, hlt⟩ := writeLen_ok hcount
  exact (readU32_reads hlt).bind (Reads.encodeAll
    (fun document _ encoding hdocument => readDocument_reads hdocument) h)

/-- Ordered postings pass the checks of the loop. -/
theorem readPostings_reads {documentCount : ℕ} {list : List Posting} {previous : Option UInt32}
    (hvalid : ∀ posting ∈ list, posting.termFrequency ≠ 0 ∧ posting.document.toNat < documentCount)
    (hordered : list.Pairwise fun first second => first.document < second.document)
    (hprevious : ∀ value, previous = some value → ∀ posting ∈ list, value < posting.document) :
    Reads (readPostings documentCount previous list.length) (list.flatMap postingBytes) list := by
  induction list generalizing previous with
  | nil => exact Reads.pure []
  | cons posting rest ih =>
    obtain ⟨hfirst, hrest⟩ := List.pairwise_cons.mp hordered
    obtain ⟨hfrequency, hlt⟩ := hvalid posting (List.mem_cons_self ..)
    have hinvalid : ¬(posting.termFrequency = 0 ∨ documentCount ≤ posting.document.toNat) := by
      rw [not_or, Nat.not_le]
      exact ⟨hfrequency, hlt⟩
    have hunordered : (previous.any fun value => posting.document ≤ value) = false := by
      cases previous with
      | none => rfl
      | some value =>
        have hbefore := hprevious value rfl posting (List.mem_cons_self ..)
        exact decide_eq_false (UInt32.not_le.mpr hbefore)
    have hlater : Reads (readPostings documentCount (some posting.document) rest.length)
        (rest.flatMap postingBytes) rest :=
      ih (fun other hother => hvalid other (List.mem_cons_of_mem _ hother)) hrest
        fun value hvalue other hother => Option.some.inj hvalue ▸ hfirst other hother
    rw [List.flatMap_cons, postingBytes, List.append_assoc]
    refine (readWord_reads posting.document).bind ((readWord_reads posting.termFrequency).bind ?_)
    rw [if_neg hinvalid, hunordered]
    exact hlater.map

theorem readTerm_reads {documentCount : ℕ} {entry : String × List Posting} {bytes : Bytes}
    (hvalid : ∀ posting ∈ entry.2, posting.termFrequency ≠ 0 ∧
      posting.document.toNat < documentCount)
    (hordered : entry.2.Pairwise fun first second => first.document < second.document)
    (h : writeTerm entry = .ok bytes) : Reads (readTerm documentCount) bytes entry := by
  obtain ⟨term, hterm, h⟩ := except_bind_ok.mp h
  obtain ⟨count, hcount, h⟩ := except_bind_ok.mp h
  cases h
  obtain ⟨rfl, hlt⟩ := writeLen_ok hcount
  have hpostings : Reads (readPostings documentCount none entry.2.length)
      (entry.2.flatMap postingBytes) entry.2 := readPostings_reads hvalid hordered nofun
  exact (readString_reads hterm).bind ((readU32_reads hlt).bind hpostings.map)

theorem ofList_toList (postings : Postings) :
    Std.ExtTreeMap.ofList postings.toList compare = postings := by
  refine Std.ExtTreeMap.ext_getElem? fun term => ?_
  cases hlist : postings[term]? with
  | some list =>
    exact Std.ExtTreeMap.getElem?_ofList_of_mem Std.ReflCmp.compare_self
      Std.ExtTreeMap.distinct_keys_toList (Std.ExtTreeMap.mem_toList_iff_getElem?_eq_some.mpr hlist)
  | none =>
    refine Std.ExtTreeMap.getElem?_ofList_of_contains_eq_false ?_
    rw [List.contains_eq_mem, decide_eq_false_iff_not]
    intro hmem
    obtain ⟨⟨other, list⟩, hentry, rfl⟩ := List.mem_map.mp hmem
    rw [Std.ExtTreeMap.mem_toList_iff_getElem?_eq_some] at hentry
    cases hlist.symm.trans hentry

theorem readTerms_reads {documentCount : ℕ} {postings : Postings} {count bytes : Bytes}
    (hvalid : PostingsValid documentCount postings)
    (hcount : writeLen "too many lexical terms" postings.size = .ok count)
    (h : encodeAll writeTerm postings.toList = .ok bytes) :
    Reads (readTerms documentCount) (count ++ bytes) postings := by
  obtain ⟨rfl, hlt⟩ := writeLen_ok hcount
  have hdistinct : (postings.toList.map Prod.fst).Nodup := by
    refine List.pairwise_map.mpr (List.Pairwise.imp
      (fun {first second} (hne : ¬compare first.1 second.1 = .eq) heq =>
        hne (compare_eq_iff_eq.mpr heq)) Std.ExtTreeMap.distinct_keys_toList)
  have hread : Reads (Reader.timesDistinct (readTerm documentCount) Prod.fst
      (LexicalIndexError.corrupt "duplicate lexical term") [] postings.toList.length)
      bytes postings.toList := by
    refine Reads.encodeAll_distinct (fun entry hentry encoding hencoding => ?_)
      hdistinct (fun _ _ => List.not_mem_nil) h
    have hlist := Std.ExtTreeMap.mem_toList_iff_getElem?_eq_some.mp hentry
    exact readTerm_reads (hvalid.posting _ _ hlist) (hvalid.ordered _ _ hlist) hencoding
  rw [Std.ExtTreeMap.length_toList] at hread
  have hmap := hread.map (f := fun entries => Std.ExtTreeMap.ofList entries compare)
  rw [ofList_toList] at hmap
  exact (readU32_reads hlt).bind hmap

theorem readSnapshot_reads {snapshot : LexicalSnapshot} {payload : Bytes}
    (hpostings : PostingsValid snapshot.documents.length snapshot.postings)
    (haverage : snapshot.averageLength.bits < 0x7f800000)
    (h : encodePayload snapshot = .ok payload) : Reads readSnapshot payload snapshot := by
  obtain ⟨collection, hcollection, h⟩ := except_bind_ok.mp h
  obtain ⟨fieldCount, hfieldCount, h⟩ := except_bind_ok.mp h
  obtain ⟨fields, hfields, h⟩ := except_bind_ok.mp h
  obtain ⟨documentCount, hdocumentCount, h⟩ := except_bind_ok.mp h
  obtain ⟨documents, hdocuments, h⟩ := except_bind_ok.mp h
  obtain ⟨termCount, htermCount, h⟩ := except_bind_ok.mp h
  obtain ⟨terms, hterms, h⟩ := except_bind_ok.mp h
  cases h
  have hgrouped : Reads readSnapshot (leBytes 8 snapshot.fingerprint.toNat ++ (collection ++
      ((fieldCount ++ fields) ++ (([analyzerKindTag snapshot.analyzer.kind] ++
        [boolByte snapshot.analyzer.lowercase]) ++ (leBytes 4 snapshot.averageLength.bits.toNat ++
          ((documentCount ++ documents) ++ (termCount ++ terms))))))) snapshot :=
    (readU64_reads snapshot.fingerprint).bind ((readCollectionId_reads hcollection).bind
      ((readFields_reads hfieldCount hfields).bind ((readAnalyzer_reads snapshot.analyzer).bind
        ((readAverage_reads haverage).bind ((readDocuments_reads hdocumentCount hdocuments).bind
          (readTerms_reads hpostings htermCount hterms).map)))))
  simpa only [List.append_assoc] using hgrouped

/-- What a build has made and written is read back as it was. -/
theorem decodeSnapshot_encodeSnapshot {snapshot : LexicalSnapshot} {bytes : Bytes}
    (hpostings : PostingsValid snapshot.documents.length snapshot.postings)
    (haverage : snapshot.averageLength.bits < 0x7f800000)
    (h : encodeSnapshot snapshot = .ok bytes) : decodeSnapshot bytes = .ok snapshot := by
  obtain ⟨payload, hpayload, h⟩ := except_bind_ok.mp h
  split at h
  · rename_i hlt
    cases h
    have hframe : format.decode (format.encode payload) = .ok payload :=
      Format.decode_encode rfl ((Nat.le_add_left ..).trans_lt hlt) (if_pos hlt)
    have hread := readSnapshot_reads hpostings haverage hpayload []
    rw [List.append_nil] at hread
    rw [decodeSnapshot, hframe, except_ok_bind, hread]
    rfl
  · cases h

end LexicalSnapshotFile

/-! ### Restoring an index -/

namespace LexicalSnapshot

variable {segments : List Segment} {collectionId : CollectionId}

theorem getElem?_visible {record : Record} (h : record ∈ visibleRecords segments collectionId) :
    (foldVisibleRecords segments collectionId)[record.id]? = some record := mem_visibleRecords.mp h

theorem length_visibleRecords : (visibleRecords segments collectionId).length =
    (foldVisibleRecords segments collectionId).size := by
  rw [visibleRecords, List.length_map, Std.ExtTreeMap.length_toList]

/-- Over the segments of the build the documents come back with their records. -/
theorem hydrateDocuments_fromIndex {documents : List IndexedDocument}
    (h : ∀ document ∈ documents, document.record ∈ visibleRecords segments collectionId) :
    (documents.map fun document : IndexedDocument =>
      (⟨document.record.id, document.record.sequenceNumber, document.length⟩ :
        SnapshotDocument)).mapM (hydrateDocument (foldVisibleRecords segments collectionId)) =
      some documents := by
  induction documents with
  | nil => rfl
  | cons document rest ih =>
    have hfirst := getElem?_visible (h document (List.mem_cons_self ..))
    have hrest := ih fun other hother => h other (List.mem_cons_of_mem _ hother)
    rw [List.map_cons, List.mapM_cons, hrest]
    simp only [hydrateDocument, hfirst, ne_eq, not_true_eq_false, if_false]
    rfl

theorem hydrate_fromIndex {index : LexicalIndex}
    (h : index.Valid (visibleRecords segments collectionId)) :
    (fromIndex index).hydrate segments collectionId = some index := by
  have hdocuments : ∀ document ∈ index.documents,
      document.record ∈ visibleRecords segments collectionId := by
    rw [← h.records]
    exact fun document hdocument => List.mem_map_of_mem hdocument
  have hlength : index.documents.length = (foldVisibleRecords segments collectionId).size := by
    rw [← length_visibleRecords, ← h.records, List.length_map]
  rw [hydrate, fromIndex, hydrateDocuments_fromIndex hdocuments]
  simp only [hlength, ne_eq, not_true_eq_false, if_false]

theorem option_mapM_some {α β : Type} {f : α → Option β} {elements : List α} {values : List β}
    (h : elements.mapM f = some values) :
    values.length = elements.length ∧ ∀ element ∈ elements, ∃ value, f element = some value := by
  induction elements generalizing values with
  | nil =>
    cases h
    exact ⟨rfl, nofun⟩
  | cons head rest ih =>
    rw [List.mapM_cons] at h
    obtain ⟨value, hvalue, h⟩ := Option.bind_eq_some_iff.mp h
    obtain ⟨later, hlater, h⟩ := Option.bind_eq_some_iff.mp h
    cases h
    obtain ⟨hlength, hall⟩ := ih hlater
    exact ⟨congrArg (· + 1) hlength, List.forall_mem_cons.mpr ⟨⟨value, hvalue⟩, hall⟩⟩

theorem hydrate_some {snapshot : LexicalSnapshot} {index : LexicalIndex}
    (h : snapshot.hydrate segments collectionId = some index) :
    snapshot.documents.length = (visibleRecords segments collectionId).length ∧
      ∀ document ∈ snapshot.documents, ∃ record ∈ visibleRecords segments collectionId,
        record.id = document.id ∧ record.sequenceNumber = document.sequence := by
  unfold hydrate at h
  dsimp only at h
  split at h
  · cases h
  · rename_i documents hdocuments
    split at h
    · cases h
    · rename_i hlength
      obtain ⟨hcount, hall⟩ := option_mapM_some hdocuments
      rw [length_visibleRecords, ← not_not.mp hlength, hcount]
      refine ⟨rfl, fun document hdocument => ?_⟩
      obtain ⟨indexed, hhydrated⟩ := hall document hdocument
      unfold hydrateDocument at hhydrated
      split at hhydrated
      · cases hhydrated
      · rename_i record hrecord
        split at hhydrated
        · cases hhydrated
        · rename_i hsequence
          have hid := (latest_of_visible hrecord).1
          exact ⟨record, mem_visibleRecords.mpr (hid.symm ▸ hrecord), hid, not_not.mp hsequence⟩

/-- Which version of which record is visible. -/
def Shows (segments : List Segment) (collectionId : CollectionId) (id : RecordId)
    (sequence : SequenceNumber) : Prop :=
  ∃ record ∈ visibleRecords segments collectionId,
    record.id = id ∧ record.sequenceNumber = sequence

/-- A snapshot is only accepted where the same versions are visible as in the build. -/
theorem shows_iff_of_hydrate {index restored : LexicalIndex} {others : List Segment}
    (hindex : index.Valid (visibleRecords segments collectionId))
    (h : (fromIndex index).hydrate others collectionId = some restored) (id : RecordId)
    (sequence : SequenceNumber) :
    Shows others collectionId id sequence ↔ Shows segments collectionId id sequence := by
  obtain ⟨hlength, hdocuments⟩ := hydrate_some h
  have hkept : ∀ record ∈ visibleRecords segments collectionId,
      ∃ other ∈ visibleRecords others collectionId,
        other.id = record.id ∧ other.sequenceNumber = record.sequenceNumber := by
    rw [← hindex.records]
    intro record hrecord
    obtain ⟨document, hdocument, rfl⟩ := List.mem_map.mp hrecord
    exact hdocuments _ (List.mem_map_of_mem hdocument)
  -- As many ids are visible in both, so those of the build are all there are.
  have hids : ∀ other ∈ visibleRecords others collectionId,
      ∃ record ∈ visibleRecords segments collectionId, record.id = other.id := by
    have hnodup : ((visibleRecords segments collectionId).map Record.id).Nodup :=
      List.pairwise_map.mpr (sorted_visibleRecords.imp ne_of_lt)
    have hsubset : (visibleRecords segments collectionId).map Record.id ⊆
        (visibleRecords others collectionId).map Record.id := by
      intro other hother
      obtain ⟨record, hrecord, rfl⟩ := List.mem_map.mp hother
      obtain ⟨found, hfound, heq, -⟩ := hkept record hrecord
      exact heq ▸ List.mem_map_of_mem hfound
    have hcount : ((visibleRecords others collectionId).map Record.id).length ≤
        ((visibleRecords segments collectionId).map Record.id).length := by
      rw [List.length_map, List.length_map, ← hlength, ← hindex.records, fromIndex, List.length_map,
        List.length_map]
    have hperm := (hnodup.subperm hsubset).perm_of_length_le hcount
    intro other hother
    obtain ⟨record, hrecord, heq⟩ := List.mem_map.mp
      (hperm.mem_iff.mpr (List.mem_map_of_mem hother))
    exact ⟨record, hrecord, heq⟩
  have hunique {left right : Record} (hleft : left ∈ visibleRecords others collectionId)
      (hright : right ∈ visibleRecords others collectionId) (heq : left.id = right.id) :
      left = right :=
    List.inj_on_of_nodup_map (List.pairwise_map.mpr (sorted_visibleRecords.imp ne_of_lt))
      hleft hright heq
  constructor
  · intro ⟨other, hother, hid, hsequence⟩
    obtain ⟨record, hrecord, heq⟩ := hids other hother
    obtain ⟨found, hfound, hfoundId, hfoundSequence⟩ := hkept record hrecord
    obtain rfl := hunique hfound hother (hfoundId.trans heq)
    exact ⟨record, hrecord, heq.trans hid, hfoundSequence.symm.trans hsequence⟩
  · intro ⟨record, hrecord, hid, hsequence⟩
    obtain ⟨found, hfound, hfoundId, hfoundSequence⟩ := hkept record hrecord
    exact ⟨found, hfound, hfoundId.trans hid, hfoundSequence.trans hsequence⟩

end LexicalSnapshot

end Ketebe
