import Ketebe.CostPlanner
import Ketebe.DocumentChunks
import Ketebe.Lib.PrefixCode

/-!
Cursors and the queries that they continue. A cursor carries a hash of its query, which is
written as a text before it is hashed. The text ends each of its parts on its own, so that
no two queries are written alike whatever characters they contain.
-/
namespace Ketebe

open Lib.ByteCodec Lib.PrefixCode

/-! ### The text of a query -/

/-- Hexadecimal digits, as many as the width says. -/
def hexPadded : ℕ → ℕ → List Char
  | 0, _ => []
  | width + 1, value => hexPadded width (value / 16) ++ [hexDigit value]

def pushString (value : String) : List Char :=
  (Nat.repr value.utf8ByteSize).toList ++ [':'] ++ value.toList

def pushPath (segments : List String) : List Char :=
  segments.flatMap fun segment => pushString segment ++ ['/']

mutual

def pushMetadata : MetadataValue → List Char
  | .null => ['n']
  | .bool value => if value then ['t'] else ['f']
  | .number value => ['d'] ++ hexPadded 16 value.bits.toNat
  | .string value => ['s'] ++ pushString value
  | .array values => ['['] ++ (pushValues values ++ [']'])
  | .object fields => ['\x7b'] ++ (pushFields fields ++ ['\x7d'])

def pushValues : List MetadataValue → List Char
  | [] => []
  | value :: rest => pushMetadata value ++ [','] ++ pushValues rest

def pushFields : Fields → List Char
  | [] => []
  | (key, value) :: rest => pushString key ++ [':'] ++ (pushMetadata value ++ [',']) ++ pushFields rest

end

/-- A name, a bracket and what stands in it. -/
def pushNamed (name : String) (bracket : Char) (body : List Char) : List Char :=
  name.toList ++ [bracket] ++ body

def pushCmp (name : String) (path : FieldPath) (value : MetadataValue) : List Char :=
  pushNamed name '[' (pushPath path.segments ++ [':'] ++ (pushMetadata value ++ [']']))

mutual

def pushPredicate : Predicate → List Char
  | .eq path value => pushCmp "eq" path value
  | .ne path value => pushCmp "ne" path value
  | .lt path value => pushCmp "lt" path value
  | .lte path value => pushCmp "lte" path value
  | .gt path value => pushCmp "gt" path value
  | .gte path value => pushCmp "gte" path value
  | .contains path value => pushCmp "contains" path value
  | .exists path => pushNamed "exists" '[' (pushPath path.segments ++ [']'])
  | .in path values =>
      pushNamed "in" '[' (pushPath path.segments ++ [':'] ++ (pushValues values ++ [']']))
  | .and predicates => pushNamed "and" '(' (pushList predicates ++ [')'])
  | .or predicates => pushNamed "or" '(' (pushList predicates ++ [')'])
  | .not predicate => pushNamed "not" '(' (pushPredicate predicate ++ [')'])

def pushList : List Predicate → List Char
  | [] => []
  | predicate :: rest => pushPredicate predicate ++ [';'] ++ pushList rest

end

def DistanceMetric.cursorName : DistanceMetric → String
  | .cosine => "cosine"
  | .dot => "dot"
  | .l2 => "l2"

def ExecutionPreference.cursorName : ExecutionPreference → String
  | .auto => "auto"
  | .exact => "exact"
  | .hnsw => "hnsw"

structure CursorQueryBinding where
  collectionId : CollectionId
  vector : List F32
  predicate : Option Predicate
  execution : ExecutionPreference
  searchProfile : Option String
  metric : DistanceMetric

namespace CursorQueryBinding

variable (binding : CursorQueryBinding)

/-- The profile that a query without one is bound to. -/
def profile : String := binding.searchProfile.getD "default@1"

def pushVector (vector : List F32) : List Char :=
  vector.flatMap fun value => hexPadded 8 value.bits.toNat ++ [',']

def parts : List Char :=
  pushString binding.collectionId.asStr ++ ['|'] ++ (binding.metric.cursorName.toList ++ ['|'] ++
    (binding.execution.cursorName.toList ++ ['|'] ++ (pushString binding.profile ++ ['|'] ++
      (pushVector binding.vector ++ ['|'] ++ binding.predicate.elim ['-'] pushPredicate))))

/-- The text of which the query hash is taken. -/
def canonical : List Char := "cursor-query-v1|".toList ++ binding.parts

end CursorQueryBinding

/-- `cursor_query_hash` of the source, over a digest of bytes. -/
def cursorQueryHash (sha256 : Bytes → Bytes) (binding : CursorQueryBinding) : String :=
  hexEncode (sha256 (utf8 (String.ofList binding.canonical)))

/-! ### Parts of the text -/

theorem length_hexPadded (width value : ℕ) : (hexPadded width value).length = width := by
  induction width generalizing value with
  | zero => rfl
  | succ width ih => rw [hexPadded, List.length_append, ih, List.length_singleton]

theorem hexPadded_injective {width a b : ℕ} (ha : a < 16 ^ width) (hb : b < 16 ^ width)
    (h : hexPadded width a = hexPadded width b) : a = b := by
  induction width generalizing a b with
  | zero => omega
  | succ width ih =>
    rw [Nat.pow_succ] at ha hb
    obtain ⟨hhigh, hlow⟩ := List.append_inj h (by rw [length_hexPadded, length_hexPadded])
    have hdiv : a / 16 = b / 16 := ih (by omega) (by omega) hhigh
    have hmod : a % 16 = b % 16 := by
      refine hexDigit_injective (Nat.mod_lt _ (by decide)) (Nat.mod_lt _ (by decide)) ?_
      have hdigit := (List.cons.inj hlow).1
      unfold hexDigit at hdigit ⊢
      rwa [Nat.mod_mod, Nat.mod_mod]
    omega

theorem ends_f32 : Ends fun value : F32 => hexPadded 8 value.bits.toNat := by
  refine ends_of_length ?_ fun value other => by rw [length_hexPadded, length_hexPadded]
  intro value other h
  have hbits := hexPadded_injective value.bits.toNat_lt other.bits.toNat_lt h
  cases value
  cases other
  exact congrArg F32.mk (UInt32.toNat_inj.mp hbits)

theorem ends_f64 : Ends fun value : F64 => hexPadded 16 value.bits.toNat := by
  refine ends_of_length ?_ fun value other => by rw [length_hexPadded, length_hexPadded]
  intro value other h
  have hbits := hexPadded_injective value.bits.toNat_lt other.bits.toNat_lt h
  cases value
  cases other
  exact congrArg F64.mk (UInt64.toNat_inj.mp hbits)

/-- Texts of one length in bytes are told from what follows them. -/
theorem string_append_inj {value other : String} {rest tail : List Char}
    (hsize : value.utf8ByteSize = other.utf8ByteSize)
    (h : value.toList ++ rest = other.toList ++ tail) : value = other ∧ rest = tail := by
  have hfront {longer shorter : String} {more : List Char}
      (hsame : longer.utf8ByteSize = shorter.utf8ByteSize)
      (hlist : longer.toList = shorter.toList ++ more) : longer = shorter := by
    have hlonger : longer = shorter ++ String.ofList more := by
      rw [← String.toList_inj, String.toList_append, String.toList_ofList, hlist]
    rw [hlonger, String.utf8ByteSize_append] at hsame
    have hempty : String.ofList more = "" := String.utf8ByteSize_eq_zero_iff.mp (by omega)
    rw [hlonger, hempty, String.append_empty]
  have hvalue : value = other := by
    rcases List.append_eq_append_iff.mp h with ⟨more, hother, -⟩ | ⟨more, hvalue, -⟩
    · exact (hfront hsize.symm hother).symm
    · exact hfront hsize hvalue
  subst hvalue
  exact ⟨rfl, List.append_cancel_left h⟩

theorem ends_pushString : Ends pushString := by
  intro value other rest tail h
  unfold pushString at h
  simp only [List.append_assoc, List.singleton_append] at h
  obtain ⟨hsize, htext⟩ := append_cons_inj (colon_notMem_repr _) (colon_notMem_repr _) h
  exact string_append_inj (Nat.repr_injective (String.toList_inj.mp hsize)) htext

theorem isDigit_of_pushString {value : String} {rest tail : List Char} {symbol : Char}
    (h : pushString value ++ rest = symbol :: tail) : symbol.isDigit = true := by
  have hdigits : (Nat.repr value.utf8ByteSize).toList ≠ [] := by
    rw [Nat.toList_repr]
    exact Nat.toDigits_ne_nil
  obtain ⟨digit, digits, hcons⟩ := List.exists_cons_of_ne_nil hdigits
  unfold pushString at h
  rw [hcons] at h
  obtain rfl := (List.cons.inj h).1
  have hmem : digit ∈ (Nat.repr value.utf8ByteSize).toList := by
    rw [hcons]
    exact List.mem_cons_self
  rw [Nat.toList_repr] at hmem
  exact Nat.isDigit_of_mem_toDigits (by decide) (by decide) hmem

/-- A path ends at a symbol that is no digit. -/
theorem ends_pushPath (stop : Char) (hstop : stop.isDigit = false) :
    Ends fun segments => pushPath segments ++ [stop] := by
  intro segments
  refine EndsAt.closed (fun segment _ => (ends_pushString segment).append ['/']) ?_
  intro segment rest tail h
  rw [List.append_assoc] at h
  exact Bool.false_ne_true (hstop.symm.trans (isDigit_of_pushString h))

/-! ### Metadata -/

theorem pushValues_eq (values : List MetadataValue) :
    pushValues values = values.flatMap fun value => pushMetadata value ++ [','] := by
  induction values with
  | nil => rfl
  | cons value rest ih => rw [pushValues, ih, List.flatMap_cons]

theorem pushFields_eq (fields : Fields) : pushFields fields = fields.flatMap fun field =>
    pushString field.1 ++ [':'] ++ (pushMetadata field.2 ++ [',']) := by
  induction fields with
  | nil => rfl
  | cons field rest ih => rw [pushFields, ih, List.flatMap_cons]

/-- The symbol that a value starts with. -/
def MetadataValue.tag : MetadataValue → Char
  | .null => 'n'
  | .bool value => if value then 't' else 'f'
  | .number _ => 'd'
  | .string _ => 's'
  | .array _ => '['
  | .object _ => '{'

theorem pushMetadata_cons (value : MetadataValue) :
    ∃ body, pushMetadata value = value.tag :: body := by
  cases value with
  | null => exact ⟨[], rfl⟩
  | bool value => cases value <;> exact ⟨[], rfl⟩
  | number value => exact ⟨_, rfl⟩
  | string value => exact ⟨_, rfl⟩
  | array values => exact ⟨_, by rw [pushMetadata]; rfl⟩
  | object fields => exact ⟨_, by rw [pushMetadata]; rfl⟩

theorem tag_eq {value other : MetadataValue} {rest tail : List Char}
    (h : pushMetadata value ++ rest = pushMetadata other ++ tail) : value.tag = other.tag := by
  obtain ⟨body, hvalue⟩ := pushMetadata_cons value
  obtain ⟨text, hother⟩ := pushMetadata_cons other
  rw [hvalue, hother] at h
  exact (List.cons.inj h).1

theorem tag_ne (value : MetadataValue) : value.tag ≠ ']' := by
  cases value with
  | bool value => cases value <;> decide
  | _ => simp [MetadataValue.tag]

theorem pushMetadata_ne (value : MetadataValue) (rest tail : List Char) :
    pushMetadata value ++ rest ≠ ']' :: tail := by
  obtain ⟨body, hvalue⟩ := pushMetadata_cons value
  intro h
  rw [hvalue] at h
  exact tag_ne value (List.cons.inj h).1

/-- Values of a list end at the bracket. -/
theorem endsAt_pushValues {values : List MetadataValue}
    (h : ∀ value ∈ values, EndsAt pushMetadata value) :
    EndsAt (fun values => pushValues values ++ [']']) values := by
  simp only [pushValues_eq]
  refine EndsAt.closed (fun value hvalue => (h value hvalue).append [',']) ?_
  intro value rest tail heq
  rw [List.append_assoc] at heq
  exact pushMetadata_ne value _ _ heq

theorem endsAt_pushFields {fields : Fields} (h : ∀ field ∈ fields, EndsAt pushMetadata field.2) :
    EndsAt (fun fields => pushFields fields ++ ['}']) fields := by
  have hfield : ∀ field ∈ fields, EndsAt (fun field : String × MetadataValue =>
      pushString field.1 ++ [':'] ++ (pushMetadata field.2 ++ [','])) field := by
    intro field hmem
    have hvalue := (h field hmem).append [',']
    obtain ⟨key, value⟩ := field
    have hpair := ((ends_pushString key).append [':']).pair hvalue
    exact hpair
  simp only [pushFields_eq]
  refine EndsAt.closed hfield ?_
  intro field rest tail heq
  simp only [List.append_assoc] at heq
  exact absurd (isDigit_of_pushString heq) (by decide)

mutual

theorem endsAt_pushMetadata : (value : MetadataValue) → EndsAt pushMetadata value
  | .null => by
    intro other rest tail h
    have htag := tag_eq h
    cases other with
    | null => exact ⟨rfl, (List.cons.inj h).2⟩
    | bool flag => cases flag <;> exact absurd htag (by decide)
    | _ => simp [MetadataValue.tag] at htag
  | .bool value => by
    intro other rest tail h
    have htag := tag_eq h
    cases other with
    | bool flag =>
      have hsame : value = flag := by
        cases value <;> cases flag <;> first | rfl | exact absurd htag (by decide)
      subst hsame
      exact ⟨rfl, List.append_cancel_left h⟩
    | _ => cases value <;> simp [MetadataValue.tag] at htag
  | .number value => by
    intro other rest tail h
    have htag := tag_eq h
    cases other with
    | number number =>
      obtain ⟨rfl, hrest⟩ := (ends_f64 value).prepend ['d'] number rest tail h
      exact ⟨rfl, hrest⟩
    | bool flag => cases flag <;> simp [MetadataValue.tag] at htag
    | _ => simp [MetadataValue.tag] at htag
  | .string value => by
    intro other rest tail h
    have htag := tag_eq h
    cases other with
    | string text =>
      obtain ⟨rfl, hrest⟩ := (ends_pushString value).prepend ['s'] text rest tail h
      exact ⟨rfl, hrest⟩
    | bool flag => cases flag <;> simp [MetadataValue.tag] at htag
    | _ => simp [MetadataValue.tag] at htag
  | .array values => by
    intro other rest tail h
    have htag := tag_eq h
    cases other with
    | array others =>
      rw [pushMetadata, pushMetadata] at h
      obtain ⟨rfl, hrest⟩ :=
        (endsAt_pushValues (endsAt_values values)).prepend ['['] others rest tail h
      exact ⟨rfl, hrest⟩
    | bool flag => cases flag <;> simp [MetadataValue.tag] at htag
    | _ => simp [MetadataValue.tag] at htag
  | .object fields => by
    intro other rest tail h
    have htag := tag_eq h
    cases other with
    | object others =>
      rw [pushMetadata, pushMetadata] at h
      obtain ⟨rfl, hrest⟩ :=
        (endsAt_pushFields (endsAt_fields fields)).prepend ['{'] others rest tail h
      exact ⟨rfl, hrest⟩
    | bool flag => cases flag <;> simp [MetadataValue.tag] at htag
    | _ => simp [MetadataValue.tag] at htag

theorem endsAt_values : (values : List MetadataValue) → ∀ value ∈ values, EndsAt pushMetadata value
  | [] => fun _ hmem => absurd hmem List.not_mem_nil
  | value :: rest => List.forall_mem_cons.mpr ⟨endsAt_pushMetadata value, endsAt_values rest⟩

theorem endsAt_fields : (fields : Fields) → ∀ field ∈ fields, EndsAt pushMetadata field.2
  | [] => fun _ hmem => absurd hmem List.not_mem_nil
  | (_, value) :: rest => List.forall_mem_cons.mpr ⟨endsAt_pushMetadata value, endsAt_fields rest⟩

end

/-! ### Predicates -/

def Predicate.cursorName : Predicate → String
  | .eq _ _ => "eq"
  | .ne _ _ => "ne"
  | .lt _ _ => "lt"
  | .lte _ _ => "lte"
  | .gt _ _ => "gt"
  | .gte _ _ => "gte"
  | .contains _ _ => "contains"
  | .exists _ => "exists"
  | .in _ _ => "in"
  | .and _ => "and"
  | .or _ => "or"
  | .not _ => "not"

theorem takeWhile_pushNamed {name : String} {bracket : Char} (body rest : List Char)
    (hname : name.toList.all Char.isAlpha = true) (hbracket : ¬bracket.isAlpha = true) :
    (pushNamed name bracket body ++ rest).takeWhile Char.isAlpha = name.toList := by
  rw [pushNamed, List.append_assoc, List.append_assoc,
    List.takeWhile_append_of_pos (List.all_eq_true.mp hname), List.singleton_append,
    List.takeWhile_cons_of_neg hbracket, List.append_nil]

theorem pushPredicate_named (predicate : Predicate) : ∃ bracket body,
    pushPredicate predicate = pushNamed predicate.cursorName bracket body ∧
      ¬bracket.isAlpha = true := by
  cases predicate <;> exact ⟨_, _, by rw [pushPredicate]; rfl, by decide⟩

theorem cursorName_isAlpha (predicate : Predicate) :
    predicate.cursorName.toList.all Char.isAlpha = true ∧ predicate.cursorName.toList ≠ [] := by
  cases predicate <;> simp only [Predicate.cursorName] <;> decide

/-- The name of a predicate is what stands before its bracket. -/
theorem takeWhile_pushPredicate (predicate : Predicate) (rest : List Char) :
    (pushPredicate predicate ++ rest).takeWhile Char.isAlpha = predicate.cursorName.toList := by
  obtain ⟨bracket, body, hpredicate, hbracket⟩ := pushPredicate_named predicate
  rw [hpredicate, takeWhile_pushNamed body rest (cursorName_isAlpha predicate).1 hbracket]

theorem cursorName_eq {predicate other : Predicate} {rest tail : List Char}
    (h : pushPredicate predicate ++ rest = pushPredicate other ++ tail) :
    predicate.cursorName = other.cursorName := by
  rw [← String.toList_inj, ← takeWhile_pushPredicate predicate rest, h, takeWhile_pushPredicate]

theorem pushPredicate_ne (predicate : Predicate) (rest tail : List Char) :
    pushPredicate predicate ++ rest ≠ ')' :: tail := by
  intro h
  have hname := takeWhile_pushPredicate predicate rest
  rw [h, List.takeWhile_cons_of_neg (by decide)] at hname
  exact (cursorName_isAlpha predicate).2 hname.symm

theorem pushCmp_inj {name : String} {path other : FieldPath} {value text : MetadataValue}
    {rest tail : List Char} (h : pushCmp name path value ++ rest = pushCmp name other text ++ tail) :
    (path = other ∧ value = text) ∧ rest = tail := by
  have hends := ((ends_pushPath ':' rfl path.segments).pair
    ((endsAt_pushMetadata value).append [']'])).prepend (name.toList ++ ['['])
  obtain ⟨hboth, hrest⟩ := hends (other.segments, text) rest tail h
  obtain ⟨hsegments, hvalue⟩ := Prod.mk.inj hboth
  exact ⟨⟨FieldPath.segments_injective hsegments, hvalue⟩, hrest⟩

theorem pushList_eq (predicates : List Predicate) :
    pushList predicates = predicates.flatMap fun predicate => pushPredicate predicate ++ [';'] := by
  induction predicates with
  | nil => rfl
  | cons predicate rest ih => rw [pushList, ih, List.flatMap_cons]

theorem endsAt_pushList {predicates : List Predicate}
    (h : ∀ predicate ∈ predicates, EndsAt pushPredicate predicate) (name : String) :
    EndsAt (fun predicates => pushNamed name '(' (pushList predicates ++ [')'])) predicates := by
  simp only [pushList_eq, pushNamed]
  refine EndsAt.prepend (EndsAt.closed (fun predicate hmem =>
    (h predicate hmem).append [';']) ?_) (name.toList ++ ['('])
  intro predicate rest tail heq
  rw [List.append_assoc] at heq
  exact pushPredicate_ne predicate _ _ heq

/-- A comparison is told by its path and value, if its name tells it from the others. -/
theorem endsAt_comparison {comparison : FieldPath → MetadataValue → Predicate}
    (hpush : ∀ path value, pushPredicate (comparison path value) =
      pushCmp (comparison path value).cursorName path value)
    (hname : ∀ path value other, other.cursorName = (comparison path value).cursorName →
      ∃ otherPath otherValue, other = comparison otherPath otherValue)
    (path : FieldPath) (value : MetadataValue) : EndsAt pushPredicate (comparison path value) := by
  intro other rest tail h
  have hsame := cursorName_eq h
  obtain ⟨otherPath, otherValue, rfl⟩ := hname path value other hsame.symm
  rw [hpush, hpush, hsame] at h
  obtain ⟨⟨rfl, rfl⟩, hrest⟩ := pushCmp_inj h
  exact ⟨rfl, hrest⟩

theorem endsAt_exists (path : FieldPath) : EndsAt (fun segments =>
    pushNamed "exists" '[' (pushPath segments ++ [']'])) path.segments :=
  EndsAt.prepend (ends_pushPath ']' rfl path.segments) _

theorem endsAt_in (path : FieldPath) (values : List MetadataValue) :
    EndsAt (fun both : List String × List MetadataValue =>
      pushNamed "in" '[' (pushPath both.1 ++ [':'] ++ (pushValues both.2 ++ [']'])))
      (path.segments, values) :=
  EndsAt.prepend ((ends_pushPath ':' rfl path.segments).pair
    (endsAt_pushValues (endsAt_values values))) _

mutual

theorem endsAt_pushPredicate : (predicate : Predicate) → EndsAt pushPredicate predicate
  | .eq path value => by
    refine endsAt_comparison (fun _ _ => by rw [pushPredicate]; rfl) (fun _ _ other hname => ?_)
      path value
    cases other with
    | eq path value => exact ⟨path, value, rfl⟩
    | _ => simp [Predicate.cursorName] at hname
  | .ne path value => by
    refine endsAt_comparison (fun _ _ => by rw [pushPredicate]; rfl) (fun _ _ other hname => ?_)
      path value
    cases other with
    | ne path value => exact ⟨path, value, rfl⟩
    | _ => simp [Predicate.cursorName] at hname
  | .lt path value => by
    refine endsAt_comparison (fun _ _ => by rw [pushPredicate]; rfl) (fun _ _ other hname => ?_)
      path value
    cases other with
    | lt path value => exact ⟨path, value, rfl⟩
    | _ => simp [Predicate.cursorName] at hname
  | .lte path value => by
    refine endsAt_comparison (fun _ _ => by rw [pushPredicate]; rfl) (fun _ _ other hname => ?_)
      path value
    cases other with
    | lte path value => exact ⟨path, value, rfl⟩
    | _ => simp [Predicate.cursorName] at hname
  | .gt path value => by
    refine endsAt_comparison (fun _ _ => by rw [pushPredicate]; rfl) (fun _ _ other hname => ?_)
      path value
    cases other with
    | gt path value => exact ⟨path, value, rfl⟩
    | _ => simp [Predicate.cursorName] at hname
  | .gte path value => by
    refine endsAt_comparison (fun _ _ => by rw [pushPredicate]; rfl) (fun _ _ other hname => ?_)
      path value
    cases other with
    | gte path value => exact ⟨path, value, rfl⟩
    | _ => simp [Predicate.cursorName] at hname
  | .contains path value => by
    refine endsAt_comparison (fun _ _ => by rw [pushPredicate]; rfl) (fun _ _ other hname => ?_)
      path value
    cases other with
    | contains path value => exact ⟨path, value, rfl⟩
    | _ => simp [Predicate.cursorName] at hname
  | .exists path => by
    intro other rest tail h
    have hname := cursorName_eq h
    cases other with
    | «exists» other =>
      rw [pushPredicate, pushPredicate] at h
      obtain ⟨hsegments, hrest⟩ := endsAt_exists path other.segments rest tail h
      exact ⟨by rw [FieldPath.segments_injective hsegments], hrest⟩
    | _ => simp [Predicate.cursorName] at hname
  | .in path values => by
    intro other rest tail h
    have hname := cursorName_eq h
    cases other with
    | «in» other others =>
      rw [pushPredicate, pushPredicate] at h
      obtain ⟨hboth, hrest⟩ := endsAt_in path values (other.segments, others) rest tail h
      obtain ⟨hsegments, rfl⟩ := Prod.mk.inj hboth
      exact ⟨by rw [FieldPath.segments_injective hsegments], hrest⟩
    | _ => simp [Predicate.cursorName] at hname
  | .and predicates => by
    intro other rest tail h
    have hname := cursorName_eq h
    cases other with
    | and others =>
      rw [pushPredicate, pushPredicate] at h
      obtain ⟨rfl, hrest⟩ := endsAt_pushList (endsAt_predicates predicates) "and" others rest tail h
      exact ⟨rfl, hrest⟩
    | _ => simp [Predicate.cursorName] at hname
  | .or predicates => by
    intro other rest tail h
    have hname := cursorName_eq h
    cases other with
    | or others =>
      rw [pushPredicate, pushPredicate] at h
      obtain ⟨rfl, hrest⟩ := endsAt_pushList (endsAt_predicates predicates) "or" others rest tail h
      exact ⟨rfl, hrest⟩
    | _ => simp [Predicate.cursorName] at hname
  | .not predicate => by
    intro other rest tail h
    have hname := cursorName_eq h
    cases other with
    | not other =>
      rw [pushPredicate, pushPredicate] at h
      have hends := ((endsAt_pushPredicate predicate).append [')']).prepend ("not".toList ++ ['('])
      obtain ⟨rfl, hrest⟩ := hends other rest tail h
      exact ⟨rfl, hrest⟩
    | _ => simp [Predicate.cursorName] at hname

theorem endsAt_predicates : (predicates : List Predicate) →
    ∀ predicate ∈ predicates, EndsAt pushPredicate predicate
  | [] => fun _ hmem => absurd hmem List.not_mem_nil
  | predicate :: rest =>
      List.forall_mem_cons.mpr ⟨endsAt_pushPredicate predicate, endsAt_predicates rest⟩

end

/-! ### Bindings -/

namespace CursorQueryBinding

variable {binding other : CursorQueryBinding}

/-- The same query, up to a default profile that is not written out. -/
def Same (binding other : CursorQueryBinding) : Prop :=
  binding.collectionId = other.collectionId ∧ binding.metric = other.metric ∧
    binding.execution = other.execution ∧ binding.profile = other.profile ∧
      binding.vector = other.vector ∧ binding.predicate = other.predicate

theorem ends_metric : Ends fun metric : DistanceMetric => metric.cursorName.toList ++ ['|'] := by
  refine ends_of_stop ?_ ?_
  · intro metric other h
    cases metric <;> cases other <;> simp [DistanceMetric.cursorName] at h ⊢
  · intro metric
    cases metric <;> simp [DistanceMetric.cursorName]

theorem ends_execution :
    Ends fun execution : ExecutionPreference => execution.cursorName.toList ++ ['|'] := by
  refine ends_of_stop ?_ ?_
  · intro execution other h
    cases execution <;> cases other <;> simp [ExecutionPreference.cursorName] at h ⊢
  · intro execution
    cases execution <;> simp [ExecutionPreference.cursorName]

theorem bar_notMem_hexPadded (width value : ℕ) : '|' ∉ hexPadded width value := by
  have hdigit : ∀ digit : Fin 16, Nat.digitChar digit ≠ '|' := by decide
  induction width generalizing value with
  | zero => exact List.not_mem_nil
  | succ width ih =>
    rw [hexPadded, List.mem_append, List.mem_singleton]
    rintro (hmem | hlast)
    · exact ih _ hmem
    · exact hdigit ⟨value % 16, Nat.mod_lt _ (by decide)⟩ hlast.symm

theorem ends_pushVector : Ends fun vector => pushVector vector ++ ['|'] := by
  intro vector
  refine EndsAt.closed (fun value _ => (ends_f32 value).append [',']) ?_
  intro value rest tail h
  have hwidth : hexPadded 8 value.bits.toNat ≠ [] :=
    List.ne_nil_of_length_pos (by rw [length_hexPadded]; decide)
  obtain ⟨digit, digits, hcons⟩ := List.exists_cons_of_ne_nil hwidth
  have hbar := bar_notMem_hexPadded 8 value.bits.toNat
  rw [hcons] at h hbar
  exact hbar ((List.cons.inj h).1 ▸ List.mem_cons_self)

theorem predicate_inj {first second : Option Predicate}
    (h : first.elim ['-'] pushPredicate = second.elim ['-'] pushPredicate) : first = second := by
  have hdash (predicate : Predicate) : pushPredicate predicate ≠ ['-'] := by
    intro heq
    have hname := takeWhile_pushPredicate predicate []
    rw [List.append_nil, heq, List.takeWhile_cons_of_neg (by decide)] at hname
    exact (cursorName_isAlpha predicate).2 hname.symm
  cases first with
  | none =>
    cases second with
    | none => rfl
    | some second => exact absurd h.symm (hdash second)
  | some first =>
    cases second with
    | none => exact absurd h (hdash first)
    | some second =>
      obtain ⟨rfl, -⟩ := endsAt_pushPredicate first second [] [] (by
        rw [List.append_nil, List.append_nil]
        exact h)
      rfl

/-- No two queries are written alike. -/
theorem same_of_canonical (h : binding.canonical = other.canonical) : binding.Same other := by
  have hparts : binding.parts = other.parts := List.append_cancel_left h
  unfold parts at hparts
  obtain ⟨hid, hmetric⟩ := (ends_pushString binding.collectionId.asStr).append ['|']
    other.collectionId.asStr _ _ hparts
  obtain ⟨hmetric, hexecution⟩ := ends_metric _ other.metric _ _ hmetric
  obtain ⟨hexecution, hprofile⟩ := ends_execution _ other.execution _ _ hexecution
  obtain ⟨hprofile, hvector⟩ := (ends_pushString binding.profile).append ['|']
    other.profile _ _ hprofile
  obtain ⟨hvector, hpredicate⟩ := ends_pushVector _ other.vector _ _ hvector
  exact ⟨CollectionId.asStr_injective hid, hmetric, hexecution, hprofile, hvector,
    predicate_inj hpredicate⟩

theorem canonical_of_same (h : binding.Same other) : binding.canonical = other.canonical := by
  obtain ⟨hid, hmetric, hexecution, hprofile, hvector, hpredicate⟩ := h
  have hparts : binding.parts = other.parts := by
    rw [parts, parts, hid, hmetric, hexecution, hprofile, hvector, hpredicate]
  exact congrArg (_ ++ ·) hparts

end CursorQueryBinding

/-! ### Cursors -/

inductive CursorError where
  | invalid (message : String)
  | unsupportedVersion (version : ℕ)
  | expired
  | staleSnapshot
  | queryMismatch
  deriving DecidableEq

structure CursorPayload where
  version : ℕ
  collectionId : String
  queryHash : String
  snapshotSequence : ℕ
  checkpointSequence : Option ℕ
  score : F32
  recordId : RecordId
  issuedAtUnixMs : ℕ

def cursorVersion : ℕ := 1

/-- The payload of a cursor that is issued. -/
def encodeCursor (collectionId : CollectionId) (queryHash : String) (snapshotSequence : ℕ)
    (checkpointSequence : Option ℕ) (score : F32) (recordId : RecordId) (unixMs : ℕ) :
    Except CursorError CursorPayload :=
  if score.isFinite then
    .ok ⟨cursorVersion, collectionId.asStr, queryHash, snapshotSequence, checkpointSequence, score,
      recordId, unixMs⟩
  else .error (.invalid "non-finite score")

def validateCursor (payload : CursorPayload) (collectionId : CollectionId) (queryHash : String)
    (snapshotSequence : ℕ) : Except CursorError Unit :=
  if payload.collectionId ≠ collectionId.asStr ∨ payload.queryHash ≠ queryHash then
    .error .queryMismatch
  else if payload.snapshotSequence ≠ snapshotSequence then .error .staleSnapshot
  else .ok ()

theorem queryHash_of_encodeCursor {collectionId : CollectionId} {queryHash : String}
    {sequence unixMs : ℕ} {checkpoint : Option ℕ} {score : F32} {recordId : RecordId}
    {payload : CursorPayload} (h : encodeCursor collectionId queryHash sequence checkpoint score
      recordId unixMs = .ok payload) : payload.queryHash = queryHash := by
  unfold encodeCursor at h
  split at h
  · cases h
    rfl
  · cases h

theorem queryHash_of_validateCursor {payload : CursorPayload} {collectionId : CollectionId}
    {queryHash : String} {sequence : ℕ}
    (h : validateCursor payload collectionId queryHash sequence = .ok ()) :
    payload.queryHash = queryHash := by
  unfold validateCursor at h
  split at h
  · cases h
  · rename_i hmatches
    exact not_ne_iff.mp (not_or.mp hmatches).2

theorem same_of_queryHash {sha256 : Bytes → Bytes} (hsha256 : Function.Injective sha256)
    {binding other : CursorQueryBinding}
    (h : cursorQueryHash sha256 binding = cursorQueryHash sha256 other) : binding.Same other := by
  have htext := congrArg String.toList (utf8_injective (hsha256 (hexEncode_injective h)))
  rw [String.toList_ofList, String.toList_ofList] at htext
  exact CursorQueryBinding.same_of_canonical htext

/-- Two queries are written alike exactly when they are the same, so that a cursor is
accepted for the query it was issued for only. -/
theorem cursors_bound (sha256 : Bytes → Bytes) (hsha256 : Function.Injective sha256) :
    (∀ binding other : CursorQueryBinding,
      binding.canonical = other.canonical ↔ binding.Same other) ∧
    ∀ (issued asked : CursorQueryBinding) (payload : CursorPayload) (sequence current unixMs : ℕ)
      (checkpoint : Option ℕ) (score : F32) (recordId : RecordId),
      encodeCursor issued.collectionId (cursorQueryHash sha256 issued) sequence checkpoint score
        recordId unixMs = .ok payload →
      validateCursor payload asked.collectionId (cursorQueryHash sha256 asked) current = .ok () →
      issued.Same asked := by
  constructor
  · intro binding other
    exact ⟨CursorQueryBinding.same_of_canonical, CursorQueryBinding.canonical_of_same⟩
  · intro issued asked payload sequence current unixMs checkpoint score recordId hissued haccepted
    apply same_of_queryHash hsha256
    rw [← queryHash_of_encodeCursor hissued, queryHash_of_validateCursor haccepted]

theorem cursors_bound_plain :
    (∀ binding other : CursorQueryBinding,
      binding.canonical = other.canonical ↔ binding.Same other) ∧
    ∀ (issued asked : CursorQueryBinding) (payload : CursorPayload) (sequence current unixMs : ℕ)
      (checkpoint : Option ℕ) (score : F32) (recordId : RecordId),
      encodeCursor issued.collectionId (cursorQueryHash id issued) sequence checkpoint score
        recordId unixMs = .ok payload →
      validateCursor payload asked.collectionId (cursorQueryHash id asked) current = .ok () →
      issued.Same asked :=
  cursors_bound id Function.injective_id

end Ketebe
