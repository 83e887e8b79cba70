import Ketebe.Identifiers
import Mathlib.Data.List.Basic

/-!
Records: finite vectors of 32-bit floats kept by their bits, and JSON-like
metadata. A metadata map is its list of fields in increasing key order, at
every depth, so that equal maps are equal lists.
-/
namespace Ketebe

/-- A 32-bit float by its bit pattern. -/
structure F32 where
  bits : UInt32
  deriving DecidableEq

/-- A 64-bit float by its bit pattern. -/
structure F64 where
  bits : UInt64
  deriving DecidableEq

/-- Finite floats are those whose exponent field is not all ones. -/
def F32.isFinite (value : F32) : Bool := value.bits.toNat / 2 ^ 23 % 2 ^ 8 != 255

/-- The source's scan for a non-finite value, which reports its index. -/
def firstNonFinite : ℕ → List F32 → Option ℕ
  | _, [] => none
  | index, value :: rest => if value.isFinite then firstNonFinite (index + 1) rest else some index

/-- Dense vector owned by a record: every component is finite. -/
structure Vector where
  values : List F32
  finite : firstNonFinite 0 values = none
  deriving DecidableEq

namespace Vector

theorem finite_nil : firstNonFinite 0 [] = none := rfl

theorem finite_zero : firstNonFinite 0 [⟨0⟩] = none := rfl

theorem finite_one : firstNonFinite 0 [⟨0x3f800000⟩] = none := rfl

def new (values : List F32) : Except DomainError Vector :=
  match h : firstNonFinite 0 values with
  | some index => .error (.nonFiniteVectorValue index)
  | none => .ok ⟨values, h⟩

def length (vector : Vector) : ℕ := vector.values.length

theorem new_values (vector : Vector) : new vector.values = .ok vector := by
  unfold new
  split
  · rename_i index h
    rw [vector.finite] at h
    cases h
  · rfl

theorem values_of_new {values : List F32} {vector : Vector} (h : new values = .ok vector) :
    vector.values = values := by
  unfold new at h
  split at h
  · cases h
  · cases h
    rfl

end Vector

/-- JSON-like metadata value; an object lists its fields. -/
inductive MetadataValue where
  | null
  | bool (value : Bool)
  | number (value : F64)
  | string (value : String)
  | array (values : List MetadataValue)
  | object (fields : List (String × MetadataValue))

abbrev Fields := List (String × MetadataValue)

mutual

/-- Objects at every depth list their keys in increasing order. -/
def MetadataValue.Ordered : MetadataValue → Prop
  | .array values => OrderedValues values
  | .object fields => OrderedFields fields
  | _ => True

def OrderedValues : List MetadataValue → Prop
  | [] => True
  | value :: rest => value.Ordered ∧ OrderedValues rest

def OrderedFields : Fields → Prop
  | [] => True
  | (key, value) :: rest =>
      (∀ field ∈ rest, key < field.1) ∧ value.Ordered ∧ OrderedFields rest

end

/-- A metadata value all of whose objects are maps. -/
abbrev OrderedValue := { value : MetadataValue // value.Ordered }

theorem orderedValues_map (values : List OrderedValue) :
    OrderedValues (values.map Subtype.val) := by
  induction values with
  | nil => trivial
  | cons head tail ih => exact ⟨head.2, ih⟩

def OrderedValue.array (values : List OrderedValue) : OrderedValue :=
  ⟨.array (values.map Subtype.val), orderedValues_map values⟩

/-- `BTreeMap::insert` on the ordered list of fields. -/
def insertField (key : String) (value : MetadataValue) : Fields → Fields
  | [] => [(key, value)]
  | (head, old) :: rest =>
      if key < head then (key, value) :: (head, old) :: rest
      else if key = head then (key, value) :: rest
      else (head, old) :: insertField key value rest

def getField (key : String) : Fields → Option MetadataValue
  | [] => none
  | (head, value) :: rest => if key = head then some value else getField key rest

theorem getField_insertField {key other : String} {value : MetadataValue} {fields : Fields} :
    getField other (insertField key value fields) =
      if other = key then some value else getField other fields := by
  induction fields with
  | nil => rfl
  | cons head rest ih =>
    obtain ⟨name, old⟩ := head
    simp only [insertField]
    split
    · rfl
    · split
      · rename_i hname
        subst hname
        simp only [getField]
        split <;> rfl
      · rename_i hname
        simp only [getField, ih]
        split
        · rename_i hother
          rw [if_neg fun h => hname (h.symm.trans hother)]
        · rfl

theorem mem_insertField {key : String} {value : MetadataValue} {fields : Fields}
    {field : String × MetadataValue} (h : field ∈ insertField key value fields) :
    field = (key, value) ∨ field ∈ fields := by
  induction fields with
  | nil => simpa [insertField] using h
  | cons head rest ih =>
    obtain ⟨name, old⟩ := head
    simp only [insertField] at h
    split at h
    · simpa using h
    · split at h
      · rcases List.mem_cons.mp h with rfl | hrest
        · exact Or.inl rfl
        · exact Or.inr (List.mem_cons_of_mem _ hrest)
      · rcases List.mem_cons.mp h with rfl | hrest
        · exact Or.inr (List.mem_cons_self ..)
        · exact (ih hrest).imp_right (List.mem_cons_of_mem _)

theorem orderedFields_insertField {key : String} {value : MetadataValue} {fields : Fields}
    (hvalue : value.Ordered) (hfields : OrderedFields fields) :
    OrderedFields (insertField key value fields) := by
  induction fields with
  | nil => simp [insertField, OrderedFields, hvalue]
  | cons head rest ih =>
    obtain ⟨name, old⟩ := head
    obtain ⟨hhead, hold, hrest⟩ := hfields
    simp only [insertField]
    split
    · rename_i hlt
      refine ⟨?_, hvalue, hhead, hold, hrest⟩
      intro field hfield
      rcases List.mem_cons.mp hfield with rfl | hmem
      · exact hlt
      · exact hlt.trans (hhead field hmem)
    · rename_i hnot
      split
      · rename_i heq
        subst heq
        exact ⟨hhead, hvalue, hrest⟩
      · rename_i hne
        refine ⟨?_, hold, ih hrest⟩
        intro field hfield
        rcases mem_insertField hfield with rfl | hmem
        · exact lt_of_le_of_ne (not_lt.mp hnot) (Ne.symm hne)
        · exact hhead field hmem

/-- A key above all the others goes to the end. -/
theorem insertField_of_lt {key : String} {value : MetadataValue} {fields : Fields}
    (h : ∀ field ∈ fields, field.1 < key) :
    insertField key value fields = fields ++ [(key, value)] := by
  induction fields with
  | nil => rfl
  | cons head rest ih =>
    obtain ⟨name, old⟩ := head
    have hhead : name < key := h _ (List.mem_cons_self ..)
    simp only [insertField]
    rw [if_neg (not_lt.mpr hhead.le), if_neg hhead.ne',
      ih fun field hfield => h field (List.mem_cons_of_mem _ hfield), List.cons_append]

theorem lt_of_orderedFields {before after : Fields} {field : String × MetadataValue}
    (h : OrderedFields (before ++ after)) (hfield : field ∈ after) :
    ∀ earlier ∈ before, earlier.1 < field.1 := by
  induction before with
  | nil => simp
  | cons head rest ih =>
    obtain ⟨hhead, -, hrest⟩ := h
    intro earlier hearlier
    rcases List.mem_cons.mp hearlier with rfl | hmem
    · exact hhead field (List.mem_append_right _ hfield)
    · exact ih hrest earlier hmem

/-- Metadata attached to a record. -/
structure Metadata where
  fields : Fields
  ordered : OrderedFields fields

namespace Metadata

theorem ext {a b : Metadata} (h : a.fields = b.fields) : a = b := by
  cases a
  cases b
  cases h
  rfl

def empty : Metadata := ⟨[], trivial⟩

def get (metadata : Metadata) (key : String) : Option MetadataValue := getField key metadata.fields

def insert (metadata : Metadata) (key : String) (value : OrderedValue) : Metadata :=
  ⟨insertField key value.1 metadata.fields, orderedFields_insertField value.2 metadata.ordered⟩

/-- The object value that holds these fields. -/
def toValue (metadata : Metadata) : OrderedValue := ⟨.object metadata.fields, metadata.ordered⟩

end Metadata

/-- User-visible logical record stored in a collection. -/
structure Record where
  id : RecordId
  vector : Vector
  metadata : Metadata
  sequenceNumber : SequenceNumber

end Ketebe
