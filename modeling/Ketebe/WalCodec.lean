import Ketebe.Wal

/-!
Replay inverts the frame encoding: every reader inverts its writer, a complete
frame is decoded to its mutation whatever follows it, and a proper prefix of a
frame is an ignored tail.
-/
namespace Ketebe.Wal

open Lib.ByteCodec

/-! ### Scalars and strings -/

theorem take_reads (bytes : Bytes) : Reads (take bytes.length) bytes bytes :=
  Reads.take _ bytes

theorem readU8_reads (byte : UInt8) : Reads readU8 [byte] byte := by
  exact (take_reads [byte]).map (f := fun bytes => bytes.headD 0)

theorem readU32_reads (value : ℕ) (h : value < 256 ^ 4) :
    Reads readU32 (leBytes 4 value) value := by
  have htake := take_reads (leBytes 4 value)
  rw [length_leBytes] at htake
  have hmap := htake.map (f := leValue)
  rwa [leValue_leBytes 4 value h] at hmap

theorem readU64_reads (value : UInt64) : Reads readU64 (leBytes 8 value.toNat) value := by
  have htake := take_reads (leBytes 8 value.toNat)
  rw [length_leBytes] at htake
  have hmap := htake.map (f := fun bytes => UInt64.ofNat (leValue bytes))
  rw [leValue_leBytes 8 value.toNat value.toNat_lt, UInt64.ofNat_toNat] at hmap
  exact hmap

theorem liftDomain_reads {α : Type} {result : Except DomainError α} {value : α}
    (h : result = .ok value) : Reads (liftDomain result) [] value :=
  Reads.lift (by rw [h]; rfl)

/-- A reader that ends in a domain validation of the value read. -/
theorem reads_liftDomain {α β : Type} {reader : Reader WalError α}
    {f : α → Except DomainError β} {encoding : Bytes} {raw : α} {value : β}
    (hreader : Reads reader encoding raw) (h : f raw = .ok value) :
    Reads (reader >>= fun raw => liftDomain (f raw)) encoding value := by
  have hbind := hreader.bind (f := fun raw => liftDomain (f raw)) (liftDomain_reads h)
  simpa only [List.append_nil] using hbind

theorem writeLen_ok {message : String} {len : ℕ} {bytes : Bytes}
    (h : writeLen message len = .ok bytes) : bytes = leBytes 4 len ∧ len < 256 ^ 4 := by
  unfold writeLen at h
  split at h
  · rename_i hlen
    cases h
    exact ⟨rfl, hlen⟩
  · cases h

theorem writeString_ok {value : String} {bytes : Bytes} (h : writeString value = .ok bytes) :
    bytes = leBytes 4 (utf8 value).length ++ utf8 value ∧ (utf8 value).length < 256 ^ 4 := by
  obtain ⟨len, hlen, hbytes⟩ := except_bind_ok.mp h
  obtain ⟨rfl, hbound⟩ := writeLen_ok hlen
  cases hbytes
  exact ⟨rfl, hbound⟩

theorem readString_reads {value : String} {bytes : Bytes} (h : writeString value = .ok bytes) :
    Reads readString bytes value := by
  obtain ⟨rfl, hlen⟩ := writeString_ok h
  have hutf8 : stringFromUtf8 (utf8 value) = .ok value := by
    rw [stringFromUtf8, ofUtf8_utf8]
  exact (readU32_reads _ hlen).bind ((take_reads (utf8 value)).check hutf8)

theorem readRecordId_reads {id : RecordId} {bytes : Bytes} (h : writeRecordId id = .ok bytes) :
    Reads readRecordId bytes id := by
  cases id with
  | string value hvalue =>
    obtain ⟨string, hstring, hbytes⟩ := except_bind_ok.mp h
    cases hbytes
    exact (readU8_reads 0).bind
      (reads_liftDomain (readString_reads hstring) (RecordId.ofString_eq value hvalue))
  | unsigned value =>
    cases h
    exact (readU8_reads 1).bind (readU64_reads value).map

theorem readF32_reads (value : F32) : Reads readF32 (leBytes 4 value.bits.toNat) value := by
  have h := (readU32_reads value.bits.toNat value.bits.toNat_lt).map
    (f := fun bits => (⟨UInt32.ofNat bits⟩ : F32))
  rwa [UInt32.ofNat_toNat] at h

theorem readVector_reads {vector : Vector} {bytes : Bytes} (h : writeVector vector = .ok bytes) :
    Reads readVector bytes vector := by
  obtain ⟨len, hlen, hbytes⟩ := except_bind_ok.mp h
  obtain ⟨rfl, hbound⟩ := writeLen_ok hlen
  cases hbytes
  refine (readU32_reads _ hbound).bind ?_
  exact reads_liftDomain (Reads.times _ vector.values fun value _ => readF32_reads value)
    (Vector.new_values vector)

/-! ### Metadata -/

def forgetEntries (entries : List (String × OrderedValue)) : Fields :=
  entries.map fun entry => (entry.1, entry.2.1)

/-- Fields already in key order are inserted back as they stand. -/
theorem insertAll_fields (entries : List (String × OrderedValue)) (metadata : Metadata)
    (h : OrderedFields (metadata.fields ++ forgetEntries entries)) :
    (entries.foldl (fun metadata entry => metadata.insert entry.1 entry.2) metadata).fields =
      metadata.fields ++ forgetEntries entries := by
  induction entries generalizing metadata with
  | nil => simp [forgetEntries]
  | cons entry rest ih =>
    have hinsert : (metadata.insert entry.1 entry.2).fields =
        metadata.fields ++ [(entry.1, entry.2.1)] :=
      insertField_of_lt (lt_of_orderedFields h (List.mem_cons_self ..))
    have hsplit : metadata.fields ++ forgetEntries (entry :: rest) =
        (metadata.insert entry.1 entry.2).fields ++ forgetEntries rest := by
      rw [hinsert, List.append_assoc]
      rfl
    rw [hsplit] at h ⊢
    exact ih _ h

theorem insertAll_eq {entries : List (String × OrderedValue)} {metadata : Metadata}
    (h : forgetEntries entries = metadata.fields) : insertAll entries = metadata := by
  apply Metadata.ext
  have hordered : OrderedFields (Metadata.empty.fields ++ forgetEntries entries) := by
    simpa only [Metadata.empty, List.nil_append, h] using metadata.ordered
  rw [insertAll, insertAll_fields entries .empty hordered, h]
  rfl

theorem readField_reads {value : Reader WalError OrderedValue} {key : String}
    {name bytes : Bytes} {field : OrderedValue} (hname : writeString key = .ok name)
    (hvalue : Reads value bytes field) : Reads (readField value) (name ++ bytes) (key, field) :=
  (readString_reads hname).bind hvalue.map

theorem readMetadataWith_reads (metadata : Metadata) {value : Reader WalError OrderedValue}
    {bytes : Bytes} {entries : List (String × OrderedValue)}
    (hlen : metadata.fields.length < 256 ^ 4) (hentries : forgetEntries entries = metadata.fields)
    (hreads : Reads (Reader.times (readField value) metadata.fields.length) bytes entries) :
    Reads (readMetadataWith value) (leBytes 4 metadata.fields.length ++ bytes) metadata := by
  have hmap := hreads.map (f := insertAll)
  rw [insertAll_eq hentries] at hmap
  exact (readU32_reads _ hlen).bind hmap

theorem readBool_reads (value : Bool) :
    Reads readBool [if value then 1 else 0] ⟨.bool value, trivial⟩ := by
  cases value
  · exact (readU8_reads 0).bind (Reads.pure _)
  · exact (readU8_reads 1).bind (Reads.pure _)

theorem readArrayWith_reads {value : Reader WalError OrderedValue} {len : ℕ} {bytes : Bytes}
    {items : List OrderedValue} (hlen : len < 256 ^ 4)
    (hreads : Reads (Reader.times value len) bytes items) :
    Reads (readArrayWith value) (leBytes 4 len ++ bytes) (.array items) :=
  (readU32_reads _ hlen).bind hreads.map

theorem readTagged_object (value : Reader WalError OrderedValue) :
    readTagged value 5 = readMetadataWith value >>= fun metadata => pure metadata.toValue := rfl

theorem length_pos_of_writeMetadataValue {value : MetadataValue} {bytes : Bytes}
    (h : writeMetadataValue value = .ok bytes) : 0 < bytes.length := by
  cases value with
  | null => cases h; simp
  | bool value => cases h; simp
  | number value => cases h; simp
  | string value =>
    obtain ⟨string, -, hbytes⟩ := except_bind_ok.mp h
    cases hbytes
    simp
  | array values =>
    obtain ⟨len, -, hrest⟩ := except_bind_ok.mp h
    obtain ⟨body, -, hbytes⟩ := except_bind_ok.mp hrest
    cases hbytes
    simp
  | object fields =>
    obtain ⟨len, -, hrest⟩ := except_bind_ok.mp h
    obtain ⟨body, -, hbytes⟩ := except_bind_ok.mp hrest
    cases hbytes
    simp

mutual

/-- A depth of the encoding's length is enough: every level reads its tag. -/
theorem readMetadataValue_reads : (value : MetadataValue) → (hvalue : value.Ordered) →
    {bytes : Bytes} → writeMetadataValue value = .ok bytes →
    {depth : ℕ} → bytes.length ≤ depth → Reads (readMetadataValue depth) bytes ⟨value, hvalue⟩
  | value, hvalue, bytes, h, 0, hdepth => by
    have hpos := length_pos_of_writeMetadataValue h
    omega
  | .null, _, _, h, depth + 1, _ => by
    cases h
    exact (readU8_reads 0).bind (Reads.pure _)
  | .bool value, _, _, h, depth + 1, _ => by
    cases h
    exact (readU8_reads 1).bind (readBool_reads value)
  | .number value, _, _, h, depth + 1, _ => by
    cases h
    exact (readU8_reads 2).bind (readU64_reads value.bits).map
  | .string value, _, _, h, depth + 1, _ => by
    obtain ⟨string, hstring, hbytes⟩ := except_bind_ok.mp h
    cases hbytes
    exact (readU8_reads 3).bind (readString_reads hstring).map
  | .array values, hvalue, _, h, depth + 1, hdepth => by
    obtain ⟨len, hlen, hrest⟩ := except_bind_ok.mp h
    obtain ⟨body, hbody, hbytes⟩ := except_bind_ok.mp hrest
    obtain ⟨rfl, hbound⟩ := writeLen_ok hlen
    cases hbytes
    have hbodyDepth : body.length ≤ depth := by
      simp only [List.length_cons, List.length_append] at hdepth
      omega
    obtain ⟨items, hitems, hreads⟩ := readMetadataValues_reads values hvalue hbody hbodyDepth
    have harray : OrderedValue.array items = ⟨.array values, hvalue⟩ := by
      simp only [OrderedValue.array, hitems]
    rw [← harray]
    exact (readU8_reads 4).bind (readArrayWith_reads hbound hreads)
  | .object fields, hvalue, _, h, depth + 1, hdepth => by
    obtain ⟨len, hlen, hrest⟩ := except_bind_ok.mp h
    obtain ⟨body, hbody, hbytes⟩ := except_bind_ok.mp hrest
    obtain ⟨rfl, hbound⟩ := writeLen_ok hlen
    cases hbytes
    have hbodyDepth : body.length ≤ depth := by
      simp only [List.length_cons, List.length_append] at hdepth
      omega
    have hfields : OrderedFields fields := by simpa only [MetadataValue.Ordered] using hvalue
    obtain ⟨entries, hentries, hreads⟩ := readFields_reads fields hfields hbody hbodyDepth
    have hmetadata := readMetadataWith_reads ⟨fields, hfields⟩ hbound hentries hreads
    have hobject := hmetadata.map (f := Metadata.toValue)
    rw [← readTagged_object] at hobject
    exact (readU8_reads 5).bind hobject

theorem readMetadataValues_reads : (values : List MetadataValue) → (hvalues : OrderedValues values) →
    {bytes : Bytes} → writeMetadataValues values = .ok bytes →
    {depth : ℕ} → bytes.length ≤ depth → ∃ items : List OrderedValue,
      items.map Subtype.val = values ∧
        Reads (Reader.times (readMetadataValue depth) values.length) bytes items
  | [], _, _, h, depth, _ => by
    cases h
    exact ⟨[], rfl, Reads.pure []⟩
  | value :: rest, ⟨hvalue, hvalues⟩, _, h, depth, hdepth => by
    obtain ⟨head, hhead, hrest⟩ := except_bind_ok.mp h
    obtain ⟨tail, htail, hbytes⟩ := except_bind_ok.mp hrest
    cases hbytes
    rw [List.length_append] at hdepth
    have hheadDepth : head.length ≤ depth := by omega
    have htailDepth : tail.length ≤ depth := by omega
    obtain ⟨items, hitems, hreads⟩ := readMetadataValues_reads rest hvalues htail htailDepth
    have hfirst := readMetadataValue_reads value hvalue hhead hheadDepth
    exact ⟨⟨value, hvalue⟩ :: items, by rw [List.map_cons, hitems], hfirst.times_cons hreads⟩

theorem readFields_reads : (fields : Fields) → (hfields : OrderedFields fields) →
    {bytes : Bytes} → writeFields fields = .ok bytes →
    {depth : ℕ} → bytes.length ≤ depth → ∃ entries : List (String × OrderedValue),
      forgetEntries entries = fields ∧
        Reads (Reader.times (readField (readMetadataValue depth)) fields.length) bytes entries
  | [], _, _, h, depth, _ => by
    cases h
    exact ⟨[], rfl, Reads.pure []⟩
  | (key, value) :: rest, ⟨_, hvalue, hfields⟩, _, h, depth, hdepth => by
    obtain ⟨name, hname, hafter⟩ := except_bind_ok.mp h
    obtain ⟨head, hhead, hrest⟩ := except_bind_ok.mp hafter
    obtain ⟨tail, htail, hbytes⟩ := except_bind_ok.mp hrest
    cases hbytes
    simp only [List.length_append] at hdepth
    have hheadDepth : head.length ≤ depth := by omega
    have htailDepth : tail.length ≤ depth := by omega
    obtain ⟨entries, hentries, hreads⟩ := readFields_reads rest hfields htail htailDepth
    have hfirst := readField_reads hname (readMetadataValue_reads value hvalue hhead hheadDepth)
    refine ⟨(key, ⟨value, hvalue⟩) :: entries, by simp [forgetEntries, ← hentries], ?_⟩
    rw [← List.append_assoc]
    exact hfirst.times_cons hreads

end

theorem readMetadata_reads {metadata : Metadata} {bytes : Bytes}
    (h : writeMetadata metadata = .ok bytes) : Reads readMetadata bytes metadata := by
  obtain ⟨len, hlen, hrest⟩ := except_bind_ok.mp h
  obtain ⟨body, hbody, hbytes⟩ := except_bind_ok.mp hrest
  obtain ⟨rfl, hbound⟩ := writeLen_ok hlen
  cases hbytes
  intro rest
  have hdepth : body.length ≤ (leBytes 4 metadata.fields.length ++ body ++ rest).length := by
    simp only [List.length_append]
    omega
  obtain ⟨entries, hentries, hreads⟩ :=
    readFields_reads metadata.fields metadata.ordered hbody hdepth
  exact readMetadataWith_reads metadata hbound hentries hreads rest

/-! ### The nesting bound -/

theorem readU8_splits : Splits readU8 :=
  (Splits.take _ _).bind fun _ => Splits.pure _

theorem readU32_splits : Splits readU32 :=
  (Splits.take _ _).bind fun _ => Splits.pure _

theorem readString_splits : Splits readString :=
  readU32_splits.bind fun _ => (Splits.take _ _).bind fun _ => Splits.check _

theorem readTagged_splits {value : Reader WalError OrderedValue} (h : Splits value) (tag : UInt8) :
    Splits (readTagged value tag) := by
  have hfield : Splits (readField value) :=
    readString_splits.bind fun _ => h.bind fun _ => Splits.pure _
  unfold readTagged
  split
  · exact Splits.pure _
  split
  · refine readU8_splits.bind fun tag => ?_
    split
    · exact Splits.pure _
    split
    · exact Splits.pure _
    · exact Splits.fail _
  split
  · exact ((Splits.take _ _).bind fun _ => Splits.pure _).bind fun _ => Splits.pure _
  split
  · exact readString_splits.bind fun _ => Splits.pure _
  split
  · exact readU32_splits.bind fun len => (h.times len).bind fun _ => Splits.pure _
  split
  · exact (readU32_splits.bind fun len => (hfield.times len).bind fun _ => Splits.pure _).bind
      fun _ => Splits.pure _
  · exact Splits.fail _

theorem readMetadataValue_splits (depth : ℕ) : Splits (readMetadataValue depth) := by
  induction depth with
  | zero => exact Splits.fail _
  | succ depth ih => exact readU8_splits.bind (readTagged_splits ih)

theorem readTagged_agrees {bound : ℕ} {first second : Reader WalError OrderedValue}
    (h : AgreesUpTo bound first second) (hsplits : Splits first) (tag : UInt8) :
    AgreesUpTo bound (readTagged first tag) (readTagged second tag) := by
  have hfield : AgreesUpTo bound (readField first) (readField second) :=
    AgreesUpTo.bind (fun _ _ => rfl) readString_splits fun _ =>
      h.bind hsplits fun _ _ _ => rfl
  have hfieldSplits : Splits (readField first) :=
    readString_splits.bind fun _ => hsplits.bind fun _ => Splits.pure _
  unfold readTagged
  split
  · exact fun _ _ => rfl
  split
  · exact fun _ _ => rfl
  split
  · exact fun _ _ => rfl
  split
  · exact fun _ _ => rfl
  split
  · exact AgreesUpTo.bind (fun _ _ => rfl) readU32_splits fun len =>
      (h.times hsplits len).bind (hsplits.times len) fun _ _ _ => rfl
  split
  · refine AgreesUpTo.bind ?_ ?_ fun _ _ _ => rfl
    · exact AgreesUpTo.bind (fun _ _ => rfl) readU32_splits fun len =>
        (hfield.times hfieldSplits len).bind (hfieldSplits.times len) fun _ _ _ => rfl
    · exact readU32_splits.bind fun len => (hfieldSplits.times len).bind fun _ => Splits.pure _
  · exact fun _ _ => rfl

/-- Any two bounds that cover the input give the same result. -/
theorem readMetadataValue_depth (depth other : ℕ) (input : Bytes) (h : input.length ≤ depth)
    (hother : input.length ≤ other) :
    readMetadataValue depth input = readMetadataValue other input := by
  induction depth generalizing other input with
  | zero =>
    have hempty : input = [] := List.eq_nil_of_length_eq_zero (Nat.le_zero.mp h)
    subst hempty
    cases other with
    | zero => rfl
    | succ other => rfl
  | succ depth ih =>
    cases other with
    | zero =>
      have hempty : input = [] := List.eq_nil_of_length_eq_zero (Nat.le_zero.mp hother)
      subst hempty
      rfl
    | succ other =>
      cases input with
      | nil => rfl
      | cons tag rest =>
        rw [List.length_cons] at h hother
        have hread : readU8 (tag :: rest) = .ok (tag, rest) := readU8_reads tag rest
        simp only [readMetadataValue, Reader.bind_of_ok hread]
        have hagrees : AgreesUpTo rest.length (readMetadataValue depth) (readMetadataValue other) :=
          fun input hinput => ih other input (by omega) (by omega)
        exact readTagged_agrees hagrees (readMetadataValue_splits depth) tag rest le_rfl


/-! ### Payloads -/

/-- The operation byte of the mutation's frame. -/
def operationOf : WalMutation → UInt8
  | .upsert .. => opUpsert
  | .delete .. => opDelete

theorem encodePayload_operation {mutation : WalMutation} {operation : UInt8} {payload : Bytes}
    (h : encodePayload mutation = .ok (operation, payload)) : operation = operationOf mutation := by
  cases mutation with
  | upsert collectionId record =>
    obtain ⟨collection, -, h⟩ := except_bind_ok.mp h
    obtain ⟨id, -, h⟩ := except_bind_ok.mp h
    obtain ⟨vector, -, h⟩ := except_bind_ok.mp h
    obtain ⟨metadata, -, h⟩ := except_bind_ok.mp h
    cases h
    rfl
  | delete collectionId recordId sequence =>
    obtain ⟨collection, -, h⟩ := except_bind_ok.mp h
    obtain ⟨id, -, h⟩ := except_bind_ok.mp h
    cases h
    rfl

theorem readMutation_reads {mutation : WalMutation} {operation : UInt8} {payload : Bytes}
    (h : encodePayload mutation = .ok (operation, payload)) :
    Reads (readMutation operation mutation.sequenceNumber) payload mutation := by
  cases mutation with
  | upsert collectionId record =>
    obtain ⟨collection, hcollection, h⟩ := except_bind_ok.mp h
    obtain ⟨id, hid, h⟩ := except_bind_ok.mp h
    obtain ⟨vector, hvector, h⟩ := except_bind_ok.mp h
    obtain ⟨metadata, hmetadata, h⟩ := except_bind_ok.mp h
    cases h
    have hbody : Reads (readVector >>= fun vector => readMetadata >>= fun metadata =>
        pure (WalMutation.upsert collectionId ⟨record.id, vector, metadata, record.sequenceNumber⟩))
        (vector ++ metadata) (.upsert collectionId record) :=
      (readVector_reads hvector).bind (readMetadata_reads hmetadata).map
    exact (readString_reads hcollection).bind
      ((liftDomain_reads (CollectionId.new_asStr collectionId)).bind
        ((readRecordId_reads hid).bind hbody))
  | delete collectionId recordId sequence =>
    obtain ⟨collection, hcollection, h⟩ := except_bind_ok.mp h
    obtain ⟨id, hid, h⟩ := except_bind_ok.mp h
    cases h
    exact (readString_reads hcollection).bind
      ((liftDomain_reads (CollectionId.new_asStr collectionId)).bind (readRecordId_reads hid).map)

theorem decodePayload_encodePayload {mutation : WalMutation} {operation : UInt8} {payload : Bytes}
    (h : encodePayload mutation = .ok (operation, payload)) :
    decodePayload operation mutation.sequenceNumber payload = .ok mutation := by
  have hread := readMutation_reads h []
  rw [List.append_nil] at hread
  rw [decodePayload, hread]
  rfl

theorem readMutation_ok {operation : UInt8} {sequence : SequenceNumber} {input rest : Bytes}
    {mutation : WalMutation}
    (h : readMutation operation sequence input = .ok (mutation, rest)) :
    operationOf mutation = operation ∧ mutation.sequenceNumber = sequence := by
  obtain ⟨name, _, -, h⟩ := Reader.bind_ok.mp h
  obtain ⟨collectionId, _, -, h⟩ := Reader.bind_ok.mp h
  obtain ⟨recordId, _, -, h⟩ := Reader.bind_ok.mp h
  split at h
  · rename_i hupsert
    obtain ⟨vector, _, -, h⟩ := Reader.bind_ok.mp h
    obtain ⟨metadata, _, -, h⟩ := Reader.bind_ok.mp h
    cases h
    exact ⟨hupsert.symm, rfl⟩
  · split at h
    · rename_i hdelete
      cases h
      exact ⟨hdelete.symm, rfl⟩
    · cases h

/-- A decoded mutation carries the operation and the sequence number of its header. -/
theorem decodePayload_ok {operation : UInt8} {sequence : SequenceNumber} {payload : Bytes}
    {mutation : WalMutation} (h : decodePayload operation sequence payload = .ok mutation) :
    operationOf mutation = operation ∧ mutation.sequenceNumber = sequence := by
  obtain ⟨⟨entry, rest⟩, hread, h⟩ := except_bind_ok.mp h
  by_cases hrest : rest = []
  · simp only [if_pos hrest] at h
    cases h
    exact readMutation_ok hread
  · simp only [if_neg hrest] at h
    cases h

end Ketebe.Wal
