import Mathlib.Data.String.Basic
import Mathlib.Data.Sum.Order
import Mathlib.Order.Basic
import Mathlib.Order.Compare
import Mathlib.Order.Lattice
import Mathlib.Tactic.Cases

/-!
Validated identifiers of the domain layer. A collection id keeps the proof of
its own validation, a string record id the proof that it is not empty.
Sequence numbers are 64-bit and saturate where the source saturates.
-/
namespace Ketebe

inductive DomainError where
  | emptyRecordId
  | emptyCollectionId
  | invalidCollectionIdCharacter (character : Char) (index : ℕ)
  | collectionIdTooLong (max actual : ℕ)
  | invalidDimension (dimension : ℕ)
  | vectorDimensionMismatch (expected actual : ℕ)
  | nonFiniteVectorValue (index : ℕ)
  | invalidIngestionConfig (message : String)
  deriving DecidableEq, Repr

/-- The texts of the source's `Display`. -/
def DomainError.display : DomainError → String
  | .emptyRecordId => "record id must not be empty"
  | .emptyCollectionId => "collection id must not be empty"
  | .invalidCollectionIdCharacter character index =>
      "collection id contains invalid character '" ++ character.toString ++
        "' at byte index " ++ toString index
  | .collectionIdTooLong max actual =>
      "collection id exceeds maximum length " ++ toString max ++ ": " ++ toString actual
  | .invalidDimension dimension =>
      "vector dimension must be greater than zero: " ++ toString dimension
  | .vectorDimensionMismatch expected actual =>
      "vector dimension mismatch: expected " ++ toString expected ++ ", got " ++ toString actual
  | .nonFiniteVectorValue index =>
      "vector contains a non-finite value at index " ++ toString index
  | .invalidIngestionConfig message => "invalid collection ingestion config: " ++ message

/-- Lowercase ASCII letters, digits, `-` and `_`. -/
def isIdentifierCharacter (character : Char) : Bool :=
  ('a' ≤ character && character ≤ 'z') || ('0' ≤ character && character ≤ '9') ||
    character == '-' || character == '_'

/-- The first character outside the identifier alphabet with its byte index. -/
def firstInvalidCharacter : ℕ → List Char → Option (Char × ℕ)
  | _, [] => none
  | index, character :: rest =>
      if isIdentifierCharacter character then
        firstInvalidCharacter (index + character.utf8Size) rest
      else some (character, index)

def maxCollectionIdLen : ℕ := 128

def CollectionId.validate (value : String) : Except DomainError Unit :=
  if value = "" then .error .emptyCollectionId
  else if maxCollectionIdLen < value.utf8ByteSize then
    .error (.collectionIdTooLong maxCollectionIdLen value.utf8ByteSize)
  else match firstInvalidCharacter 0 value.toList with
    | some (character, index) => .error (.invalidCollectionIdCharacter character index)
    | none => .ok ()

theorem CollectionId.validate_a : CollectionId.validate "a" = .ok () := by decide

theorem CollectionId.validate_docs : CollectionId.validate "docs" = .ok () := by decide

/-- Stable identifier for a collection. -/
structure CollectionId where
  asStr : String
  valid : CollectionId.validate asStr = .ok ()
  deriving DecidableEq

namespace CollectionId

def new (value : String) : Except DomainError CollectionId :=
  match h : validate value with
  | .ok () => .ok ⟨value, h⟩
  | .error error => .error error

theorem new_asStr (id : CollectionId) : new id.asStr = .ok id := by
  unfold new
  split
  · rfl
  · rename_i error h
    rw [id.valid] at h
    cases h

theorem asStr_of_new {value : String} {id : CollectionId} (h : new value = .ok id) :
    id.asStr = value := by
  unfold new at h
  split at h
  · cases h
    rfl
  · cases h

theorem asStr_injective : Function.Injective asStr := by
  intro a b h
  cases a
  cases b
  cases h
  rfl

instance : LinearOrder CollectionId := LinearOrder.lift' asStr asStr_injective

instance : Std.LawfulEqOrd CollectionId := ⟨compare_eq_iff_eq.mp⟩

instance (priority := high) instTransOrd : Std.TransOrd CollectionId := inferInstance

end CollectionId

/-- String and numeric record identifiers are distinct namespaces. -/
inductive RecordId where
  | string (value : String) (nonempty : value ≠ "")
  | unsigned (value : UInt64)
  deriving DecidableEq

namespace RecordId

/-- The source's `RecordId::string`, which rejects the empty string. -/
def ofString (value : String) : Except DomainError RecordId :=
  if h : value = "" then .error .emptyRecordId else .ok (.string value h)

theorem ofString_eq (value : String) (h : value ≠ "") : ofString value = .ok (.string value h) :=
  dif_neg h

/-- The derived order puts every string id before every numeric one. -/
def key : RecordId → String ⊕ₗ ℕ
  | .string value _ => Sum.inlₗ value
  | .unsigned value => Sum.inrₗ value.toNat

theorem key_injective : Function.Injective key := by
  intro a b h
  cases a <;> cases b <;>
    simp [key, Sum.inlₗ, Sum.inrₗ, UInt64.toNat_inj] at h ⊢ <;> exact h

instance : LinearOrder RecordId := LinearOrder.lift' key key_injective

instance : Std.LawfulEqOrd RecordId := ⟨compare_eq_iff_eq.mp⟩

instance (priority := high) instTransOrd : Std.TransOrd RecordId := inferInstance

end RecordId

instance instLinearOrderUInt64 : LinearOrder UInt64 where
  le_refl := UInt64.le_refl
  le_trans _ _ _ := UInt64.le_trans
  lt_iff_le_not_ge a b := by
    rw [UInt64.lt_iff_toNat_lt, UInt64.le_iff_toNat_le, UInt64.le_iff_toNat_le]
    exact Nat.lt_iff_le_and_not_ge
  le_antisymm _ _ := UInt64.le_antisymm
  le_total := UInt64.le_total
  toDecidableLE := inferInstance
  toDecidableEq := inferInstance
  toDecidableLT := inferInstance
  compare := compare
  compare_eq_compareOfLessAndEq _ _ := rfl

instance (priority := high) instLawfulBEqUInt64 : LawfulBEq UInt64 := inferInstance

/-- Monotonically increasing logical mutation position within a collection. -/
abbrev SequenceNumber := UInt64

/-- The largest sequence number. -/
def maxSequence : ℕ := 2 ^ 64 - 1

/-- `saturating_add(1)` on `u64`. -/
def SequenceNumber.saturatingSucc (sequence : SequenceNumber) : SequenceNumber :=
  if sequence.toNat < maxSequence then sequence + 1 else sequence

theorem SequenceNumber.toNat_saturatingSucc (sequence : SequenceNumber)
    (h : sequence.toNat < maxSequence) : sequence.saturatingSucc.toNat = sequence.toNat + 1 := by
  unfold maxSequence at h
  rw [saturatingSucc, if_pos (by unfold maxSequence; omega), UInt64.toNat_add, UInt64.toNat_one]
  omega

end Ketebe
