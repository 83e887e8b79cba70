import Ketebe.Record
import Mathlib.Data.Int.Order.Basic

/-!
Metadata predicates. Numbers are compared as IEEE 754 doubles decoded from
their bits: both zeros are equal and a NaN equals and precedes nothing.
-/
namespace Ketebe

namespace F64

/-- All bits but the sign. -/
def magnitude (value : F64) : ℕ := value.bits.toNat % 2 ^ 63

def isNegative (value : F64) : Bool := 2 ^ 63 ≤ value.bits.toNat

def isNan (value : F64) : Bool := 0x7ff0000000000000 < value.magnitude

/-- A signed integer that orders the values other than NaN. -/
def signedKey (value : F64) : ℤ :=
  if value.isNegative then -(value.magnitude : ℤ) else value.magnitude

def partialCmp (left right : F64) : Option Ordering :=
  if left.isNan || right.isNan then none else some (compare left.signedKey right.signedKey)

/-- The `==` of `f64`. -/
def eqIeee (left right : F64) : Bool := left.partialCmp right == some .eq

end F64

mutual

/-- The derived equality of metadata values. -/
def MetadataValue.eqValue : MetadataValue → MetadataValue → Bool
  | .null, .null => true
  | .bool left, .bool right => left == right
  | .number left, .number right => left.eqIeee right
  | .string left, .string right => left == right
  | .array left, .array right => eqValues left right
  | .object left, .object right => eqFields left right
  | _, _ => false

def eqValues : List MetadataValue → List MetadataValue → Bool
  | [], [] => true
  | left :: lefts, right :: rights => left.eqValue right && eqValues lefts rights
  | _, _ => false

def eqFields : Fields → Fields → Bool
  | [], [] => true
  | (leftKey, left) :: lefts, (rightKey, right) :: rights =>
      leftKey == rightKey && (left.eqValue right && eqFields lefts rights)
  | _, _ => false

end

inductive PredicateError where
  | emptyFieldPath
  | emptyFieldPathSegment
  | invalidOrderingComparison (actual expected : String)
  deriving DecidableEq, Repr

def PredicateError.display : PredicateError → String
  | .emptyFieldPath => "field path must contain at least one segment"
  | .emptyFieldPathSegment => "field path segments must not be empty"
  | .invalidOrderingComparison actual expected =>
      "metadata ordering comparison requires matching comparable types: actual=" ++ actual ++
        ", expected=" ++ expected

/-- A path of at least one segment, none of them empty. -/
structure FieldPath where
  head : String
  tail : List String
  nonempty : ∀ segment ∈ head :: tail, segment ≠ ""
  deriving DecidableEq

namespace FieldPath

theorem nonempty_title : ∀ segment ∈ ["title"], segment ≠ "" := by decide

def new : List String → Except PredicateError FieldPath
  | [] => .error .emptyFieldPath
  | head :: tail =>
      if h : ∀ segment ∈ head :: tail, segment ≠ "" then .ok ⟨head, tail, h⟩
      else .error .emptyFieldPathSegment

def segments (path : FieldPath) : List String := path.head :: path.tail

theorem segments_injective : Function.Injective segments := by
  intro a b h
  obtain ⟨hhead, htail⟩ := List.cons.inj h
  cases a
  cases b
  cases hhead
  cases htail
  rfl

/-- The derived order compares the segments. -/
instance : LinearOrder FieldPath := LinearOrder.lift' segments segments_injective

/-- Descends through objects. -/
def resolveFrom : MetadataValue → List String → Option MetadataValue
  | current, [] => some current
  | .object fields, segment :: rest =>
      match getField segment fields with
      | some next => resolveFrom next rest
      | none => none
  | _, _ :: _ => none

def resolve (path : FieldPath) (metadata : Metadata) : Option MetadataValue :=
  match metadata.get path.head with
  | some current => resolveFrom current path.tail
  | none => none

end FieldPath

inductive Predicate where
  | eq (path : FieldPath) (expected : MetadataValue)
  | ne (path : FieldPath) (expected : MetadataValue)
  | lt (path : FieldPath) (expected : MetadataValue)
  | lte (path : FieldPath) (expected : MetadataValue)
  | gt (path : FieldPath) (expected : MetadataValue)
  | gte (path : FieldPath) (expected : MetadataValue)
  | exists (path : FieldPath)
  | in (path : FieldPath) (expected : List MetadataValue)
  | contains (path : FieldPath) (expected : MetadataValue)
  | and (predicates : List Predicate)
  | or (predicates : List Predicate)
  | not (predicate : Predicate)

namespace Predicate

def valueKind : MetadataValue → String
  | .null => "null"
  | .bool _ => "bool"
  | .number _ => "number"
  | .string _ => "string"
  | .array _ => "array"
  | .object _ => "object"

def comparableOrder : MetadataValue → MetadataValue → Except PredicateError Ordering
  | .number left, .number right =>
      match left.partialCmp right with
      | some order => .ok order
      | none => .error (.invalidOrderingComparison "number" "number")
  | .string left, .string right => .ok (compare left right)
  | actual, expected => .error (.invalidOrderingComparison (valueKind actual) (valueKind expected))

/-- The source's `compare`; an unresolved path compares as false. -/
def compareWith (path : FieldPath) (metadata : Metadata) (expected : MetadataValue)
    (test : Ordering → Bool) : Except PredicateError Bool :=
  match path.resolve metadata with
  | none => .ok false
  | some actual => (comparableOrder actual expected).map test

def resolvesTo (path : FieldPath) (metadata : Metadata) (test : MetadataValue → Bool) : Bool :=
  match path.resolve metadata with
  | some value => test value
  | none => false

mutual

def evaluate (metadata : Metadata) : Predicate → Except PredicateError Bool
  | .eq path expected => .ok (resolvesTo path metadata fun value => value.eqValue expected)
  | .ne path expected => .ok (resolvesTo path metadata fun value => !value.eqValue expected)
  | .lt path expected => compareWith path metadata expected Ordering.isLT
  | .lte path expected => compareWith path metadata expected Ordering.isLE
  | .gt path expected => compareWith path metadata expected Ordering.isGT
  | .gte path expected => compareWith path metadata expected Ordering.isGE
  | .exists path => .ok (path.resolve metadata).isSome
  | .in path expected =>
      .ok (resolvesTo path metadata fun value =>
        expected.any fun candidate => candidate.eqValue value)
  | .contains path expected =>
      .ok (resolvesTo path metadata fun value => match value with
        | .array values => values.any fun candidate => candidate.eqValue expected
        | _ => false)
  | .and predicates => evaluateAll metadata predicates
  | .or predicates => evaluateAny metadata predicates
  | .not predicate => do
      let value ← evaluate metadata predicate
      pure (!value)

/-- Stops at the first false operand or error. -/
def evaluateAll (metadata : Metadata) : List Predicate → Except PredicateError Bool
  | [] => .ok true
  | predicate :: rest => do
      let value ← evaluate metadata predicate
      if value then evaluateAll metadata rest else pure false

/-- Stops at the first true operand or error. -/
def evaluateAny (metadata : Metadata) : List Predicate → Except PredicateError Bool
  | [] => .ok false
  | predicate :: rest => do
      let value ← evaluate metadata predicate
      if value then pure true else evaluateAny metadata rest

end

end Predicate

end Ketebe
