import Ketebe.Doubles

/-!
Metadata in requests and responses. A JSON number is an unsigned or a negative integer or a
finite float; the metadata holds a float for each of them. An integer that the float cannot
represent is rounded.
-/
namespace Ketebe

open Lib.ByteCodec Lib.BinaryPrecision

/-! ### JSON values -/

inductive StatusCode where
  | badRequest
  | internalServerError
  deriving DecidableEq, Repr

structure ApiError where
  status : StatusCode
  code : String
  message : String
  deriving DecidableEq, Repr

inductive JsonNumber where
  | posInt (value : UInt64)
  | negInt (value : Int64) (negative : value.toInt < 0)
  | float (value : F64) (finite : value.isFinite)

namespace JsonNumber

def asF64 : JsonNumber → Option F64
  | .posInt value => some (F64.ofUInt64 value)
  | .negInt value _ => some (F64.ofInt64 value)
  | .float value _ => some value

def fromF64 (value : F64) : Option JsonNumber :=
  if h : value.isFinite then some (.float value h) else none

def toRat : JsonNumber → ℚ
  | .posInt value => value.toNat
  | .negInt value _ => value.toInt
  | .float value _ => value.toRat

/-- A float, or an integer with at most 53 significant bits. -/
def Exact : JsonNumber → Prop
  | .posInt value => SignificantBits 53 value.toNat
  | .negInt value _ => SignificantBits 53 value.toInt.natAbs
  | .float .. => True

/-- Every number has a finite float, whose value is the number's where that is exact. -/
theorem asF64_spec (number : JsonNumber) : ∃ (value : F64) (finite : value.isFinite),
    number.asF64 = some value ∧ fromF64 value = some (.float value finite) ∧
      (number.toRat = value.toRat ↔ number.Exact) := by
  cases number with
  | posInt value =>
    refine ⟨_, F64.ofUInt64_isFinite value, rfl, dif_pos _, ⟨fun h => ?_, fun h => ?_⟩⟩
    · exact F64.significantBits_of_toRat h.symm
    · exact (F64.ofUInt64_toRat h).symm
  | negInt value negative =>
    obtain ⟨hfinite, hexact⟩ := F64.ofInt64_negative negative
    exact ⟨_, hfinite, rfl, dif_pos _, fun h => F64.significantBits_of_toRat h.symm,
      fun h => (hexact h).symm⟩
  | float value finite => exact ⟨value, finite, rfl, dif_pos finite, iff_of_true rfl trivial⟩

end JsonNumber

/-- A JSON value; an object lists its fields. -/
inductive JsonValue where
  | null
  | bool (value : Bool)
  | number (value : JsonNumber)
  | string (value : String)
  | array (values : List JsonValue)
  | object (fields : List (String × JsonValue))

abbrev JsonFields := List (String × JsonValue)

mutual

/-- Objects at every depth list their keys in increasing order. -/
def JsonValue.Ordered : JsonValue → Prop
  | .array values => OrderedJsonValues values
  | .object fields => OrderedJsonFields fields
  | _ => True

def OrderedJsonValues : List JsonValue → Prop
  | [] => True
  | value :: rest => value.Ordered ∧ OrderedJsonValues rest

def OrderedJsonFields : JsonFields → Prop
  | [] => True
  | (key, value) :: rest =>
      (∀ field ∈ rest, key < field.1) ∧ value.Ordered ∧ OrderedJsonFields rest

end

/-- A JSON value all of whose objects are maps. -/
abbrev OrderedJson := { value : JsonValue // value.Ordered }

mutual

/-- The same structure with the same keys, and numbers of the same value. -/
def JsonValue.Same : JsonValue → JsonValue → Prop
  | .null, .null => True
  | .bool left, .bool right => left = right
  | .number left, .number right => left.toRat = right.toRat
  | .string left, .string right => left = right
  | .array left, .array right => SameJsonValues left right
  | .object left, .object right => SameJsonFields left right
  | _, _ => False

def SameJsonValues : List JsonValue → List JsonValue → Prop
  | [], [] => True
  | left :: lefts, right :: rights => left.Same right ∧ SameJsonValues lefts rights
  | _, _ => False

def SameJsonFields : JsonFields → JsonFields → Prop
  | [], [] => True
  | (key, left) :: lefts, (other, right) :: rights =>
      key = other ∧ left.Same right ∧ SameJsonFields lefts rights
  | _, _ => False

end

mutual

/-- Every number at any depth is exact. -/
def JsonValue.Exact : JsonValue → Prop
  | .number value => value.Exact
  | .array values => ExactJsonValues values
  | .object fields => ExactJsonFields fields
  | _ => True

def ExactJsonValues : List JsonValue → Prop
  | [] => True
  | value :: rest => value.Exact ∧ ExactJsonValues rest

def ExactJsonFields : JsonFields → Prop
  | [] => True
  | (_, value) :: rest => value.Exact ∧ ExactJsonFields rest

end

/-! ### Both conversions -/

mutual

def jsonToMetadata : JsonValue → Except ApiError OrderedValue
  | .null => .ok ⟨.null, trivial⟩
  | .bool value => .ok ⟨.bool value, trivial⟩
  | .number value =>
      match value.asF64 with
      | some value => .ok ⟨.number value, trivial⟩
      | none => .error
          ⟨.badRequest, "invalid_metadata_value", "JSON number cannot be represented as f64"⟩
  | .string value => .ok ⟨.string value, trivial⟩
  | .array values => do
      let values ← jsonToValues values
      pure (OrderedValue.array values)
  | .object fields => do
      let object ← jsonToFields .empty fields
      pure object.toValue

def jsonToValues : List JsonValue → Except ApiError (List OrderedValue)
  | [] => pure []
  | value :: rest => do
      let head ← jsonToMetadata value
      let tail ← jsonToValues rest
      pure (head :: tail)

/-- The loop over the fields of an object. -/
def jsonToFields (object : Metadata) : JsonFields → Except ApiError Metadata
  | [] => pure object
  | (key, value) :: rest => do
      let value ← jsonToMetadata value
      jsonToFields (object.insert key value) rest

end

def jsonObjectToMetadata (value : Option JsonValue) : Except ApiError Metadata :=
  match value.getD (.object []) with
  | .object fields => jsonToFields .empty fields
  | _ => .error ⟨.badRequest, "invalid_metadata", "metadata must be a JSON object"⟩

/-- `Map::insert` on the ordered list of fields. -/
def insertJson (key : String) (value : JsonValue) : JsonFields → JsonFields
  | [] => [(key, value)]
  | (head, old) :: rest =>
      if key < head then (key, value) :: (head, old) :: rest
      else if key = head then (key, value) :: rest
      else (head, old) :: insertJson key value rest

mutual

def metadataToJson : MetadataValue → Except ApiError JsonValue
  | .null => .ok .null
  | .bool value => .ok (.bool value)
  | .number value =>
      match JsonNumber.fromF64 value with
      | some value => .ok (.number value)
      | none => .error
          ⟨.internalServerError, "internal_error", "metadata contains a non-finite number"⟩
  | .string value => .ok (.string value)
  | .array values => do
      let values ← valuesToJson values
      pure (.array values)
  | .object fields => do
      let map ← fieldsToJson [] fields
      pure (.object map)

def valuesToJson : List MetadataValue → Except ApiError (List JsonValue)
  | [] => pure []
  | value :: rest => do
      let head ← metadataToJson value
      let tail ← valuesToJson rest
      pure (head :: tail)

/-- The loop over the fields of a map. -/
def fieldsToJson (map : JsonFields) : Fields → Except ApiError JsonFields
  | [] => pure map
  | (key, value) :: rest => do
      let value ← metadataToJson value
      fieldsToJson (insertJson key value map) rest

end

def metadataMapToJson (metadata : Metadata) : Except ApiError JsonValue := do
  let map ← fieldsToJson [] metadata.fields
  pure (.object map)

/-! ### There and back -/

theorem insertJson_of_lt {key : String} {value : JsonValue} {fields : JsonFields}
    (h : ∀ field ∈ fields, field.1 < key) :
    insertJson key value fields = fields ++ [(key, value)] := by
  induction fields with
  | nil => rfl
  | cons head rest ih =>
    obtain ⟨name, old⟩ := head
    have hhead : name < key := h _ (List.mem_cons_self ..)
    simp only [insertJson]
    rw [if_neg (not_lt.mpr hhead.le), if_neg hhead.ne',
      ih fun field hfield => h field (List.mem_cons_of_mem _ hfield), List.cons_append]

/-- Every key of the first list comes before all keys of the second. -/
def KeysBefore {α β : Type} (first : List (String × α)) (second : List (String × β)) : Prop :=
  ∀ field ∈ first, ∀ later ∈ second, field.1 < later.1

theorem KeysBefore.advance {α β : Type} {first : List (String × α)} {rest : List (String × β)}
    {key : String} {value : β} (h : KeysBefore first ((key, value) :: rest))
    (hkey : ∀ field ∈ rest, key < field.1) (stored : α) :
    KeysBefore (first ++ [(key, stored)]) rest := by
  intro field hfield later hlater
  rcases List.mem_append.mp hfield with hfirst | hsingle
  · exact h field hfirst later (List.mem_cons_of_mem _ hlater)
  · rw [List.mem_singleton.mp hsingle]
    exact hkey later hlater

mutual

/-- What is stored comes back in the same structure, with the same numbers if they are exact. -/
theorem jsonToMetadata_restores : (value : JsonValue) → value.Ordered → ∃ stored json,
    jsonToMetadata value = .ok stored ∧ metadataToJson stored.1 = .ok json ∧
      (value.Same json ↔ value.Exact)
  | .null, _ => ⟨_, _, rfl, rfl, Iff.rfl⟩
  | .bool _, _ => ⟨_, _, rfl, rfl, iff_of_true rfl trivial⟩
  | .number value, _ => by
    obtain ⟨float, finite, hfloat, hnumber, hexact⟩ := value.asF64_spec
    refine ⟨⟨.number float, trivial⟩, .number (.float float finite), ?_, ?_, hexact⟩
    · rw [jsonToMetadata, hfloat]
    · rw [metadataToJson, hnumber]
  | .string _, _ => ⟨_, _, rfl, rfl, iff_of_true rfl trivial⟩
  | .array values, hordered => by
    obtain ⟨stored, jsons, hstored, hjsons, hexact⟩ := jsonToValues_restores values hordered
    refine ⟨.array stored, .array jsons, ?_, ?_, hexact⟩
    · rw [jsonToMetadata, hstored, except_ok_bind]
      rfl
    · rw [OrderedValue.array, metadataToJson, hjsons, except_ok_bind]
      rfl
  | .object fields, hordered => by
    obtain ⟨object, stored, added, hobject, hstored, hadded, hexact⟩ :=
      jsonToFields_restores fields hordered .empty [] nofun nofun
    refine ⟨object.toValue, .object added, ?_, ?_, hexact⟩
    · rw [jsonToMetadata, hobject, except_ok_bind]
      rfl
    · have hfields : object.fields = stored := hstored
      rw [Metadata.toValue, metadataToJson, hfields, hadded, except_ok_bind]
      rfl

theorem jsonToValues_restores : (values : List JsonValue) → OrderedJsonValues values →
    ∃ stored jsons, jsonToValues values = .ok stored ∧
      valuesToJson (stored.map Subtype.val) = .ok jsons ∧
      (SameJsonValues values jsons ↔ ExactJsonValues values)
  | [], _ => ⟨_, _, rfl, rfl, Iff.rfl⟩
  | value :: rest, ⟨hvalue, hrest⟩ => by
    obtain ⟨head, json, hhead, hjson, hexact⟩ := jsonToMetadata_restores value hvalue
    obtain ⟨tail, jsons, htail, hjsons, hexacts⟩ := jsonToValues_restores rest hrest
    refine ⟨head :: tail, json :: jsons, ?_, ?_, and_congr hexact hexacts⟩
    · rw [jsonToValues, hhead, except_ok_bind, htail]
      rfl
    · rw [List.map_cons, valuesToJson, hjson, except_ok_bind, hjsons]
      rfl

/-- Maps list their keys in order, so that both loops only append. -/
theorem jsonToFields_restores : (fields : JsonFields) → OrderedJsonFields fields →
    (object : Metadata) → (map : JsonFields) → KeysBefore object.fields fields →
    KeysBefore map fields → ∃ next stored added, jsonToFields object fields = .ok next ∧
      next.fields = object.fields ++ stored ∧ fieldsToJson map stored = .ok (map ++ added) ∧
      (SameJsonFields fields added ↔ ExactJsonFields fields)
  | [], _, object, map, _, _ => ⟨object, [], [], rfl, (List.append_nil _).symm,
      congrArg Except.ok (List.append_nil _).symm, Iff.rfl⟩
  | (key, value) :: rest, ⟨hkey, hvalue, hrest⟩, object, map, hobject, hmap => by
    obtain ⟨head, json, hhead, hjson, hexact⟩ := jsonToMetadata_restores value hvalue
    have hinsert : (object.insert key head).fields = object.fields ++ [(key, head.1)] :=
      insertField_of_lt fun field hfield => hobject field hfield _ (List.mem_cons_self ..)
    have hput : insertJson key json map = map ++ [(key, json)] :=
      insertJson_of_lt fun field hfield => hmap field hfield _ (List.mem_cons_self ..)
    have hbefore : KeysBefore (object.insert key head).fields rest :=
      hinsert ▸ hobject.advance hkey head.1
    obtain ⟨next, stored, added, hnext, hfields, hadded, hexacts⟩ :=
      jsonToFields_restores rest hrest (object.insert key head) (map ++ [(key, json)]) hbefore
        (hmap.advance hkey json)
    refine ⟨next, (key, head.1) :: stored, (key, json) :: added, ?_, ?_, ?_, ?_⟩
    · rw [jsonToFields, hhead, except_ok_bind, hnext]
    · rw [hfields, hinsert, List.append_assoc, List.singleton_append]
    · rw [fieldsToJson, hjson, except_ok_bind, hput, hadded, List.append_assoc,
        List.singleton_append]
    · simp only [SameJsonFields, ExactJsonFields, true_and]
      exact and_congr hexact hexacts

end

/-- Only the shape of the value is ever rejected. -/
theorem jsonObjectToMetadata_ok_iff (value : Option OrderedJson) :
    (∃ metadata, jsonObjectToMetadata (value.map Subtype.val) = .ok metadata) ↔
      ∃ fields, (value.map Subtype.val).getD (.object []) = .object fields := by
  have hordered : ((value.map Subtype.val).getD (.object [])).Ordered := by
    cases value with
    | none => trivial
    | some json => exact json.2
  unfold jsonObjectToMetadata
  generalize (value.map Subtype.val).getD (.object []) = json at hordered
  cases json with
  | object fields =>
    obtain ⟨next, -, -, hnext, -⟩ :=
      jsonToFields_restores fields hordered .empty [] nofun nofun
    exact iff_of_true ⟨next, hnext⟩ ⟨fields, rfl⟩
  | _ => exact iff_of_false nofun nofun

/-- Metadata is returned as it was sent exactly when every integer in it has at most 53
significant bits. -/
theorem restored_iff_exact (value : Option OrderedJson) {metadata : Metadata}
    (h : jsonObjectToMetadata (value.map Subtype.val) = .ok metadata) :
    (∃ json, metadataMapToJson metadata = .ok json ∧
      ((value.map Subtype.val).getD (.object [])).Same json) ↔
      ((value.map Subtype.val).getD (.object [])).Exact := by
  have hordered : ((value.map Subtype.val).getD (.object [])).Ordered := by
    cases value with
    | none => trivial
    | some json => exact json.2
  unfold jsonObjectToMetadata at h
  generalize (value.map Subtype.val).getD (.object []) = json at hordered h
  cases json with
  | object fields =>
    obtain ⟨next, stored, added, hnext, hfields, hadded, hexact⟩ :=
      jsonToFields_restores fields hordered .empty [] nofun nofun
    obtain rfl := Except.ok.inj (hnext.symm.trans h)
    have hrestored : metadataMapToJson next = .ok (.object added) := by
      rw [metadataMapToJson, show next.fields = stored from hfields, hadded, except_ok_bind]
      rfl
    have hsame : (JsonValue.object fields).Same (.object added) ↔
        (JsonValue.object fields).Exact := hexact
    rw [← hsame]
    constructor
    · rintro ⟨json, hjson, hsame⟩
      rwa [Except.ok.inj (hjson.symm.trans hrestored)] at hsame
    · intro hsame
      exact ⟨_, hrestored, hsame⟩
  | _ => cases h

/-- The object `{"id": n}`. -/
def idObject (n : UInt64) : OrderedJson :=
  ⟨.object [("id", .number (.posInt n))], nofun, trivial, trivial⟩

theorem restored_iff_exact_five :
    (∃ json, metadataMapToJson ⟨[("id", .number ⟨0x4014000000000000⟩)], nofun, trivial, trivial⟩ =
        .ok json ∧ (((some (idObject 5)).map Subtype.val).getD (.object [])).Same json) ↔
      (((some (idObject 5)).map Subtype.val).getD (.object [])).Exact :=
  restored_iff_exact (some (idObject 5)) (by rfl)

/-- The id `9007199254740993` is accepted and comes back as another one. -/
theorem not_restored_large_id :
    ∃ metadata, jsonObjectToMetadata (some (idObject 9007199254740993).1) = .ok metadata ∧
      ¬∃ json, metadataMapToJson metadata = .ok json ∧
        (idObject 9007199254740993).1.Same json := by
  refine ⟨⟨[("id", .number ⟨0x4340000000000000⟩)], nofun, trivial, trivial⟩, by rfl, ?_⟩
  rintro ⟨json, hjson, hsame⟩
  have hrounded : metadataMapToJson ⟨[("id", .number ⟨0x4340000000000000⟩)], nofun, trivial,
      trivial⟩ = .ok (.object [("id", .number (.float ⟨0x4340000000000000⟩ (by decide)))]) := by
    rfl
  obtain rfl := Except.ok.inj (hjson.symm.trans hrounded)
  have hvalue : ((9007199254740993 : UInt64).toNat : ℚ) = F64.toRat ⟨0x4340000000000000⟩ :=
    hsame.2.1
  have hbits : SignificantBits 53 9007199254740993 := F64.significantBits_of_toRat hvalue.symm
  have hdvd := (significantBits_iff_dvd (by decide)).mp hbits
  revert hdvd
  decide

end Ketebe
