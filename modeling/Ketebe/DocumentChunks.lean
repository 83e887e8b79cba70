import Ketebe.NamespaceCatalog
import Ketebe.Search
import Ketebe.StoreProgress
import Std.Data.String.ToNat

/-!
The chunks of documents. A document is kept as records that name it as their parent and
carry ids made of it. A new version of the document replaces the chunks of the old one in
one batch, which also deletes those that the new version does not have.
-/
namespace Ketebe

open Lib.ByteCodec Lib.LatestVersion Lib.Durable Lib.Durable.Program

/-! ### Ids -/

def hexEncode (bytes : Bytes) : String := String.ofList (bytes.flatMap hexByte)

/-- The parent in a chunk's id. -/
def encodedParent : RecordId → String
  | .string value _ => "s:" ++ hexEncode (utf8 value)
  | .unsigned value => "u:" ++ Nat.repr value.toNat

def chunkRecordId (parent : RecordId) (ordinal : ℕ) : RecordId :=
  .string ("_ketebe_chunk:" ++ encodedParent parent ++ ":" ++ Nat.repr ordinal) (by
    intro hempty
    have htext := congrArg String.toList hempty
    simp only [String.toList_append, String.reduceToList, List.cons_append] at htext
    cases htext)

section Ids

theorem hexDigit_ne_colon (value : ℕ) : hexDigit value ≠ ':' := by
  have hdigit : ∀ digit : Fin 16, Nat.digitChar digit ≠ ':' := by decide
  exact hdigit ⟨value % 16, Nat.mod_lt _ (by decide)⟩

theorem hexDigit_injective {a b : ℕ} (ha : a < 16) (hb : b < 16) (h : hexDigit a = hexDigit b) :
    a = b := by
  have hdigit : ∀ first second : Fin 16, Nat.digitChar first = Nat.digitChar second →
      first = second := by decide
  rw [hexDigit, hexDigit, Nat.mod_eq_of_lt ha, Nat.mod_eq_of_lt hb] at h
  exact congrArg Fin.val (hdigit ⟨a, ha⟩ ⟨b, hb⟩ h)

theorem hexByte_injective {a b : UInt8} (h : hexByte a = hexByte b) : a = b := by
  obtain ⟨hhigh, hlow⟩ := List.cons.inj h
  have ha := a.toNat_lt
  have hb := b.toNat_lt
  have hdiv := hexDigit_injective (by omega) (by omega) hhigh
  have hmod : a.toNat % 16 = b.toNat % 16 := by
    refine hexDigit_injective (Nat.mod_lt _ (by decide)) (Nat.mod_lt _ (by decide)) ?_
    have hdigits := (List.cons.inj hlow).1
    unfold hexDigit at hdigits ⊢
    rwa [Nat.mod_mod, Nat.mod_mod]
  exact UInt8.toNat_inj.mp (by omega)

theorem flatMap_hexByte_injective {first second : Bytes}
    (h : first.flatMap hexByte = second.flatMap hexByte) : first = second := by
  induction first generalizing second with
  | nil =>
    cases second with
    | nil => rfl
    | cons head rest => cases h
  | cons byte rest ih =>
    cases second with
    | nil => cases h
    | cons head tail =>
      rw [List.flatMap_cons, List.flatMap_cons] at h
      obtain ⟨hbyte, hrest⟩ := List.append_inj h rfl
      rw [hexByte_injective hbyte, ih hrest]

theorem hexEncode_injective : Function.Injective hexEncode := by
  intro first second h
  have htext := congrArg String.toList h
  rw [hexEncode, hexEncode, String.toList_ofList, String.toList_ofList] at htext
  exact flatMap_hexByte_injective htext

theorem colon_notMem_hexEncode (bytes : Bytes) : ':' ∉ (hexEncode bytes).toList := by
  rw [hexEncode, String.toList_ofList, List.mem_flatMap]
  rintro ⟨byte, -, hbyte⟩
  rcases List.mem_cons.mp hbyte with hhigh | hlow
  · exact hexDigit_ne_colon _ hhigh.symm
  · exact hexDigit_ne_colon _ (List.mem_singleton.mp hlow).symm

theorem colon_notMem_repr (value : ℕ) : ':' ∉ (Nat.repr value).toList := by
  intro hcolon
  rw [Nat.toList_repr] at hcolon
  have hdigit := Nat.isDigit_of_mem_toDigits (by decide) (by decide) hcolon
  cases hdigit

theorem encodedParent_string (value : String) (h : value ≠ "") :
    (encodedParent (.string value h)).toList = 's' :: ':' :: (hexEncode (utf8 value)).toList := by
  simp only [encodedParent, String.toList_append, String.reduceToList, List.cons_append,
    List.nil_append]

theorem encodedParent_unsigned (value : UInt64) :
    (encodedParent (.unsigned value)).toList = 'u' :: ':' :: (Nat.repr value.toNat).toList := by
  simp only [encodedParent, String.toList_append, String.reduceToList, List.cons_append,
    List.nil_append]

theorem utf8_injective : Function.Injective utf8 := by
  intro first second h
  have hsome := ofUtf8_utf8 first
  rw [h, ofUtf8_utf8] at hsome
  exact (Option.some.inj hsome).symm

/-- The parent and the ordinal can be read off a chunk's id. -/
theorem chunkRecordId_injective : Function.Injective2 chunkRecordId := by
  intro parent other ordinal position h
  have htext := congrArg String.toList (RecordId.string.inj h)
  simp only [String.toList_append, List.append_assoc] at htext
  have hparts := List.append_cancel_left htext
  have hsplit {first second : List Char} (hfirst : ':' ∉ first)
      (heq : first ++ (":".toList ++ (Nat.repr ordinal).toList) =
        second ++ (":".toList ++ (Nat.repr position).toList)) :
      first = second ∧ ordinal = position := by
    obtain ⟨hsame, -, hrepr⟩ :=
      (List.append_cons_inj_of_notMem hfirst (colon_notMem_repr ordinal)).mp heq
    exact ⟨hsame, Nat.repr_injective (String.toList_inj.mp hrepr)⟩
  cases parent with
  | string value hvalue =>
    rw [encodedParent_string] at hparts
    cases other with
    | string text htext' =>
      rw [encodedParent_string] at hparts
      obtain ⟨hhex, hordinal⟩ := hsplit (colon_notMem_hexEncode _)
        (List.cons.inj (List.cons.inj hparts).2).2
      rw [hexEncode, hexEncode, String.toList_ofList, String.toList_ofList] at hhex
      cases utf8_injective (flatMap_hexByte_injective hhex)
      exact ⟨rfl, hordinal⟩
    | unsigned number =>
      rw [encodedParent_unsigned] at hparts
      cases (List.cons.inj hparts).1
  | unsigned value =>
    rw [encodedParent_unsigned] at hparts
    cases other with
    | string text htext' =>
      rw [encodedParent_string] at hparts
      cases (List.cons.inj hparts).1
    | unsigned number =>
      rw [encodedParent_unsigned] at hparts
      obtain ⟨hrepr, hordinal⟩ := hsplit (colon_notMem_repr _)
        (List.cons.inj (List.cons.inj hparts).2).2
      cases UInt64.toNat_inj.mp (Nat.repr_injective (String.toList_inj.mp hrepr))
      exact ⟨rfl, hordinal⟩

end Ids

/-! ### Chunk records -/

/-- Division by a power of two, to the nearest number and to the even one between two. -/
def roundShift (value bits : ℕ) : ℕ :=
  let quotient := value >>> bits
  let rest := 2 * (value % 2 ^ bits)
  if 2 ^ bits < rest ∨ rest = 2 ^ bits ∧ quotient % 2 = 1 then quotient + 1 else quotient

/-- `as f64` on `u64`. -/
def F64.ofUInt64 (value : UInt64) : F64 :=
  let exponent := value.toNat.log2
  -- The leading bit of the significand adds one to the exponent field.
  let significand := if exponent ≤ 52 then value.toNat <<< (52 - exponent)
    else roundShift value.toNat (exponent - 52)
  if value = 0 then ⟨0⟩ else ⟨UInt64.ofNat ((exponent + 1022) * 2 ^ 52 + significand)⟩

def chunkMetadataKey : String := "_ketebe_chunk"

/-- What a chunk holds beside its parent: the metadata of the document, and in the chunk
object its ordinal, its place in the document and its text. -/
structure ChunkContent where
  vector : List F32
  metadata : Metadata
  details : Metadata

/-- A record whose metadata has a chunk object. -/
structure ChunkRecord where
  id : RecordId
  vector : List F32
  metadata : Metadata
  chunk : Metadata

def parentType : RecordId → String
  | .string .. => "string"
  | .unsigned _ => "u64"

def parentText : RecordId → String
  | .string value _ => value
  | .unsigned value => Nat.repr value.toNat

def chunkRecord (parent : RecordId) (ordinal : ℕ) (content : ChunkContent) : ChunkRecord :=
  ⟨chunkRecordId parent ordinal, content.vector, content.metadata,
    (content.details.insert "parent_type" ⟨.string (parentType parent), trivial⟩).insert "parent_id"
      ⟨.string (parentText parent), trivial⟩⟩

/-- The chunks of a document carry their positions as ordinals. -/
def chunkRecords (parent : RecordId) (contents : List ChunkContent) : List ChunkRecord :=
  contents.mapIdx (chunkRecord parent)

/-- The record with the generation in its chunk object. -/
def ChunkRecord.stamped (generation : SequenceNumber) (record : ChunkRecord) : PendingRecord :=
  ⟨record.id, record.vector, record.metadata.insert chunkMetadataKey
    (record.chunk.insert "generation" ⟨.number (.ofUInt64 generation), trivial⟩).toValue⟩

/-! ### Replacing and deleting -/

def recordBelongsToParent (record : Record) (parent : RecordId) : Bool :=
  match record.metadata.get chunkMetadataKey with
  | some (.object chunk) =>
      match getField "parent_type" chunk, getField "parent_id" chunk with
      | some (.string kind), some (.string text) => kind = parentType parent ∧ text = parentText parent
      | _, _ => false
  | _ => false

/-- The ids of the parent's chunks among the latest versions, whatever collection their
segments name. -/
def visibleParentChunkIds (segments : List Segment) (parent : RecordId) : List RecordId :=
  (((fold (segments.flatMap Segment.versions)).toList.filterMap fun entry => entry.2.2).filter
    (recordBelongsToParent · parent)).map Record.id

structure ChunkedDocumentResult where
  chunkIds : List RecordId
  sequenceNumbers : List SequenceNumber
  generation : SequenceNumber
  reconciledChunks : ℕ

namespace ChunkingService

open WriteService

variable {F : Type} (state : AppState F) (S : Type) [ScoreArith S]

/-- The segments that a query reads; every failure is one of the write. -/
def readSegments (runtime : CollectionRuntime) : Except WriteError (List Segment) :=
  runtime.querySegments.mapError fun error => .artifact (.segment error)

/-- The previous chunks that the new version does not have. -/
def obsoleteChunks (segments : List Segment) (parent : RecordId) (records : List ChunkRecord) :
    List RecordId :=
  (visibleParentChunkIds segments parent).filter fun id => id ∉ records.map ChunkRecord.id

def replaceParentChunks [DecidableEq F] (parent : RecordId) (records : List ChunkRecord) :
    Program (Store F) WriteError ChunkedDocumentResult := do
  let runtime ← currentRuntime state
  match runtime.config with
  | none => throw .collectionNotWritable
  | some config => do
    let segments ← lift (readSegments runtime)
    let obsolete := obsoleteChunks segments parent records
    let batch ← lift (prepareBatch state config
      (records.map (ChunkRecord.stamped runtime.nextSequence)))
    let sequences ← write state S runtime (batch ++ obsolete.map (.delete state.collectionId))
    pure ⟨records.map ChunkRecord.id, sequences.take records.length, runtime.nextSequence,
      obsolete.length⟩

def deleteParentDocument [DecidableEq F] (parent : RecordId) :
    Program (Store F) WriteError (List SequenceNumber) := do
  let runtime ← currentRuntime state
  if runtime.config.isNone then throw .collectionNotWritable
  else do
    let segments ← lift (readSegments runtime)
    let chunkIds := visibleParentChunkIds segments parent
    if chunkIds = [] then pure []
    else write state S runtime (chunkIds.map (.delete state.collectionId))

end ChunkingService

end Ketebe
