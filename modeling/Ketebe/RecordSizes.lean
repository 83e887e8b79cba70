import Ketebe.WalCodec

/-!
Sizes of records. Every length in a file is written as 32 bits, so a value can
be encoded when all its lengths, at every depth, are small enough.
-/
namespace Ketebe

open Lib.ByteCodec

mutual

/-- Every length in the value fits into 32 bits. -/
def ValueFits : MetadataValue → Prop
  | .string value => (utf8 value).length < 256 ^ 4
  | .array values => values.length < 256 ^ 4 ∧ ValuesFit values
  | .object fields => fields.length < 256 ^ 4 ∧ FieldsFit fields
  | _ => True

def ValuesFit : List MetadataValue → Prop
  | [] => True
  | value :: rest => ValueFits value ∧ ValuesFit rest

def FieldsFit : Fields → Prop
  | [] => True
  | (key, value) :: rest => (utf8 key).length < 256 ^ 4 ∧ ValueFits value ∧ FieldsFit rest

end

def IdFits : RecordId → Prop
  | .string value _ => (utf8 value).length < 256 ^ 4
  | .unsigned _ => True

structure RecordFits (record : Record) : Prop where
  id : IdFits record.id
  vector : record.vector.length < 256 ^ 4
  metadata : record.metadata.fields.length < 256 ^ 4 ∧ FieldsFit record.metadata.fields

namespace CollectionId

/-- The name of a collection always fits. -/
theorem length_asStr (id : CollectionId) : (utf8 id.asStr).length < 256 ^ 4 := by
  have hvalid := id.valid
  rw [length_utf8]
  unfold validate at hvalid
  split at hvalid
  · cases hvalid
  · split at hvalid
    · cases hvalid
    · rename_i hlen
      unfold maxCollectionIdLen at hlen
      omega

end CollectionId

namespace Wal

theorem writeLen_exists (message : String) {len : ℕ} (h : len < 256 ^ 4) :
    ∃ bytes, writeLen message len = .ok bytes := ⟨_, if_pos h⟩

theorem writeString_exists {value : String} (h : (utf8 value).length < 256 ^ 4) :
    ∃ bytes, writeString value = .ok bytes := by
  obtain ⟨len, hlen⟩ := writeLen_exists "string too large" h
  exact ⟨_, except_bind_ok.mpr ⟨len, hlen, rfl⟩⟩

mutual

theorem writeMetadataValue_exists : (value : MetadataValue) → ValueFits value →
    ∃ bytes, writeMetadataValue value = .ok bytes
  | .null, _ => ⟨_, rfl⟩
  | .bool _, _ => ⟨_, rfl⟩
  | .number _, _ => ⟨_, rfl⟩
  | .string value, h => by
    obtain ⟨bytes, hbytes⟩ := writeString_exists h
    exact ⟨_, except_bind_ok.mpr ⟨bytes, hbytes, rfl⟩⟩
  | .array values, h => by
    obtain ⟨len, hlen⟩ := writeLen_exists "metadata array too large" h.1
    obtain ⟨body, hbody⟩ := writeMetadataValues_exists values h.2
    exact ⟨_, except_bind_ok.mpr ⟨len, hlen, except_bind_ok.mpr ⟨body, hbody, rfl⟩⟩⟩
  | .object fields, h => by
    obtain ⟨len, hlen⟩ := writeLen_exists "metadata too large" h.1
    obtain ⟨body, hbody⟩ := writeFields_exists fields h.2
    exact ⟨_, except_bind_ok.mpr ⟨len, hlen, except_bind_ok.mpr ⟨body, hbody, rfl⟩⟩⟩

theorem writeMetadataValues_exists : (values : List MetadataValue) → ValuesFit values →
    ∃ bytes, writeMetadataValues values = .ok bytes
  | [], _ => ⟨_, rfl⟩
  | value :: rest, h => by
    obtain ⟨head, hhead⟩ := writeMetadataValue_exists value h.1
    obtain ⟨tail, htail⟩ := writeMetadataValues_exists rest h.2
    exact ⟨_, except_bind_ok.mpr ⟨head, hhead, except_bind_ok.mpr ⟨tail, htail, rfl⟩⟩⟩

theorem writeFields_exists : (fields : Fields) → FieldsFit fields →
    ∃ bytes, writeFields fields = .ok bytes
  | [], _ => ⟨_, rfl⟩
  | (key, value) :: rest, h => by
    obtain ⟨name, hname⟩ := writeString_exists h.1
    obtain ⟨head, hhead⟩ := writeMetadataValue_exists value h.2.1
    obtain ⟨tail, htail⟩ := writeFields_exists rest h.2.2
    exact ⟨_, except_bind_ok.mpr ⟨name, hname, except_bind_ok.mpr ⟨head, hhead,
      except_bind_ok.mpr ⟨tail, htail, rfl⟩⟩⟩⟩

end

theorem writeRecordId_exists {id : RecordId} (h : IdFits id) :
    ∃ bytes, writeRecordId id = .ok bytes := by
  cases id with
  | unsigned value => exact ⟨_, rfl⟩
  | string value hvalue =>
    obtain ⟨bytes, hbytes⟩ := writeString_exists h
    exact ⟨_, except_bind_ok.mpr ⟨bytes, hbytes, rfl⟩⟩

theorem writeVector_exists {vector : Vector} (h : vector.length < 256 ^ 4) :
    ∃ bytes, writeVector vector = .ok bytes := by
  obtain ⟨len, hlen⟩ := writeLen_exists "vector too large" h
  exact ⟨_, except_bind_ok.mpr ⟨len, hlen, rfl⟩⟩

theorem writeMetadata_exists {metadata : Metadata}
    (h : metadata.fields.length < 256 ^ 4 ∧ FieldsFit metadata.fields) :
    ∃ bytes, writeMetadata metadata = .ok bytes := by
  obtain ⟨len, hlen⟩ := writeLen_exists "metadata too large" h.1
  obtain ⟨body, hbody⟩ := writeFields_exists _ h.2
  exact ⟨_, except_bind_ok.mpr ⟨len, hlen, except_bind_ok.mpr ⟨body, hbody, rfl⟩⟩⟩

end Wal

end Ketebe
