import Ketebe.CollectionMetadata
import Ketebe.LexicalStore

/-!
The files of one collection as a reader finds them. Any name may stand in the
segment directory, and a file need not hold the segment that its name promises;
what decoding a file returns stands for the file itself.
-/
namespace Ketebe

open Lib.ByteCodec

/-! ### Names of segment files -/

/-- The location of a segment: its id, padded to twenty digits. -/
def segmentKey (id : SegmentId) : String :=
  let digits := Nat.toDigits 10 id.toNat
  String.ofList (List.replicate (20 - digits.length) '0' ++ digits ++ ".kseg".toList)

def withoutPlus : List Char → List Char
  | '+' :: rest => rest
  | text => text

/-- `str::parse::<u64>`, which allows one plus sign before the digits. -/
def parseU64 (text : List Char) : Option UInt64 :=
  let digits := withoutPlus text
  if digits = [] ∨ ¬digits.all Char.isDigit then none
  else
    let value := Nat.ofDigitChars 10 digits 0
    if value ≤ maxSequence then some (UInt64.ofNat value) else none

/-- What stands before the extension, if the extension is that of segments. -/
def segmentStem (name : String) : Option (List Char) := name.toList.dropSuffix? ".kseg".toList

theorem segmentStem_eq_some {name : String} {stem : List Char} :
    segmentStem name = some stem ↔ name.toList = stem ++ ".kseg".toList := by
  rw [segmentStem, List.dropSuffix?_eq_some_iff]
  constructor
  · rintro ⟨suffix, hname, hsuffix⟩
    rw [hname, eq_of_beq hsuffix]
  · intro hname
    exact ⟨".kseg".toList, hname, beq_self_eq_true _⟩

def segmentIdOf (name : String) : Option SegmentId := (segmentStem name).bind parseU64

theorem parseU64_digits {digits : List Char} (hne : digits ≠ [])
    (hdigits : ∀ character ∈ digits, character.isDigit = true)
    (hlt : Nat.ofDigitChars 10 digits 0 ≤ maxSequence) :
    parseU64 digits = some (UInt64.ofNat (Nat.ofDigitChars 10 digits 0)) := by
  have hsigned : withoutPlus digits = digits := by
    unfold withoutPlus
    split
    · exact absurd (hdigits '+' (List.mem_cons_self ..)) (by decide)
    · rfl
  have hall : ¬(digits = [] ∨ ¬digits.all Char.isDigit) := by
    rw [not_or, not_not]
    exact ⟨hne, List.all_eq_true.mpr hdigits⟩
  simp only [parseU64, hsigned, if_neg hall, if_pos hlt]

theorem segmentStem_key (id : SegmentId) : ∃ stem, segmentStem (segmentKey id) = some stem ∧
    parseU64 stem = some id := by
  have hpositive : Nat.toDigits 10 id.toNat ≠ [] := Nat.toDigits_ne_nil
  refine ⟨List.replicate (20 - (Nat.toDigits 10 id.toNat).length) '0' ++
    Nat.toDigits 10 id.toNat, ?_, ?_⟩
  · rw [segmentStem_eq_some, segmentKey, String.toList_ofList]
  · have hvalue : Nat.ofDigitChars 10 (List.replicate (20 - (Nat.toDigits 10 id.toNat).length) '0' ++
        Nat.toDigits 10 id.toNat) 0 = id.toNat := by
      rw [Nat.ofDigitChars_append, Nat.ofDigitChars_replicate_zero, Nat.mul_zero,
        Nat.ofDigitChars_ten_toDigits]
    have hbound := id.toNat_lt
    rw [parseU64_digits (by simp [hpositive]) ?_ (by rw [hvalue]; unfold maxSequence; omega), hvalue,
      UInt64.ofNat_toNat]
    intro character hmem
    rcases List.mem_append.mp hmem with hzero | hdigit
    · rw [(List.mem_replicate.mp hzero).2]
      rfl
    · exact Nat.isDigit_of_mem_toDigits (by decide) (by decide) hdigit

@[simp] theorem segmentIdOf_key (id : SegmentId) : segmentIdOf (segmentKey id) = some id := by
  obtain ⟨stem, hstem, hparse⟩ := segmentStem_key id
  rw [segmentIdOf, hstem, Option.bind_some, hparse]

theorem segmentKey_injective : Function.Injective segmentKey := by
  intro left right heq
  have hparsed := congrArg segmentIdOf heq
  rw [segmentIdOf_key, segmentIdOf_key] at hparsed
  exact Option.some.inj hparsed

/-! ### The segment directory -/

inductive SegmentEntry where
  | file (content : Except SegmentError Segment)
  | directory

structure NamedEntry where
  name : String
  entry : SegmentEntry

namespace NamedEntry

/-- The content that `discover` reads: a file with the extension of segments. -/
def segmentContent (entry : NamedEntry) : Option (Except SegmentError Segment) :=
  match segmentStem entry.name, entry.entry with
  | some _, .file content => some content
  | _, _ => none

def ofSegment (segment : Segment) : NamedEntry := ⟨segmentKey segment.id, .file (.ok segment)⟩

@[simp] theorem segmentContent_ofSegment (segment : Segment) :
    (ofSegment segment).segmentContent = some (.ok segment) := by
  obtain ⟨stem, hstem, -⟩ := segmentStem_key segment.id
  simp only [segmentContent, ofSegment, hstem]

end NamedEntry

/-- What stands at the path of the segment directory. -/
inductive SegmentsPath where
  | missing
  | file
  | directory (entries : List NamedEntry)

namespace SegmentsPath

/-- What the directory holds once it has been created. -/
def entries : SegmentsPath → List NamedEntry
  | .missing => []
  | .file => []
  | .directory entries => entries

/-- Every file in the order of the names; the first that cannot be decoded decides. -/
def decodeAll (entries : List NamedEntry) : Except SegmentError (List Segment) :=
  ((entries.mergeSort fun left right => left.name ≤ right.name).filterMap
    NamedEntry.segmentContent).mapM id

def discover (entries : List NamedEntry) : Except SegmentError (List Segment) :=
  (decodeAll entries).map fun segments => segments.mergeSort SegmentStore.precedes

/-- What stands at the location of the id, whatever segment it holds. -/
def entryAt (entries : List NamedEntry) (id : SegmentId) : Option SegmentEntry :=
  (entries.find? fun entry => entry.name = segmentKey id).map NamedEntry.entry

def openSegment (entries : List NamedEntry) (id : SegmentId) : Except SegmentError Segment :=
  match entryAt entries id with
  | some (.file content) => content
  | some .directory => .error .io
  | none => .error .io

/-- The ids that the names promise. -/
def diskIds (entries : List NamedEntry) : List SegmentId :=
  Lib.SortedSet.sortDedup (entries.filterMap fun entry => segmentIdOf entry.name)

variable {entries : List NamedEntry} {segments : List Segment}

theorem mem_diskIds {id : SegmentId} :
    id ∈ diskIds entries ↔ ∃ entry ∈ entries, segmentIdOf entry.name = some id := by
  rw [diskIds, Lib.SortedSet.mem_sortDedup, List.mem_filterMap]

theorem discover_nil : discover [] = .ok [] := by
  simp [discover, decodeAll, pure, Except.pure, Except.map]

/-- A successful discovery has decoded every segment file. -/
theorem mem_discover (h : discover entries = .ok segments) :
    (∀ entry ∈ entries, ∀ content, entry.segmentContent = some content →
      ∃ segment ∈ segments, content = .ok segment) ∧
    ∀ segment ∈ segments, ∃ entry ∈ entries, entry.segmentContent = some (.ok segment) := by
  unfold discover at h
  cases hall : decodeAll entries with
  | error error =>
    rw [hall] at h
    cases h
  | ok decoded =>
    rw [hall] at h
    cases h
    obtain ⟨hfrom, hinto⟩ := mem_of_except_mapM hall
    refine ⟨fun entry hentry content hcontent => ?_, fun segment hsegment => ?_⟩
    · have hmem : content ∈ (entries.mergeSort fun left right => left.name ≤ right.name).filterMap
          NamedEntry.segmentContent :=
        List.mem_filterMap.mpr ⟨entry, List.mem_mergeSort.mpr hentry, hcontent⟩
      obtain ⟨segment, hsegment, hok⟩ := hinto content hmem
      exact ⟨segment, List.mem_mergeSort.mpr hsegment, hok⟩
    · obtain ⟨content, hmem, hok⟩ := hfrom segment (List.mem_mergeSort.mp hsegment)
      obtain ⟨entry, hentry, hcontent⟩ := List.mem_filterMap.mp hmem
      have heq : content = .ok segment := hok
      subst heq
      exact ⟨entry, List.mem_mergeSort.mp hentry, hcontent⟩

/-- A file at the location of an id is one of the segment files. -/
theorem mem_of_entryAt {id : SegmentId} {content : Except SegmentError Segment}
    (h : entryAt entries id = some (.file content)) :
    ∃ entry ∈ entries, entry.segmentContent = some content := by
  obtain ⟨⟨name, kind⟩, hfind, hkind⟩ := Option.map_eq_some_iff.mp h
  have hname : name = segmentKey id := by simpa using List.find?_some hfind
  obtain ⟨stem, hstem, -⟩ := segmentStem_key id
  have hfile : kind = .file content := hkind
  refine ⟨_, List.mem_of_find?_eq_some hfind, ?_⟩
  rw [NamedEntry.segmentContent, hname, hstem, hfile]

/-- Only a file that holds a segment can be opened. -/
theorem openSegment_ok {id : SegmentId} {segment : Segment} :
    openSegment entries id = .ok segment ↔ entryAt entries id = some (.file (.ok segment)) := by
  unfold openSegment
  cases entryAt entries id with
  | none => simp
  | some kind =>
    cases kind with
    | file content => simp
    | directory => simp

end SegmentsPath

/-! ### The other files -/

/-- The content of `collection.json`. -/
inductive MetadataFile where
  | missing
  | unreadable
  | malformed
  | decoded (collection : PersistedCollection)

inductive CheckpointError where
  | io
  | invalidMagic
  | unsupportedVersion (version : UInt8)
  | checksumMismatch
  | corrupt (message : String)
  | domain (message : String)

structure ScopeManifest where
  version : ℕ
  projectId : String
  collectionId : String

inductive NamespaceError where
  | io
  | missingNamespace
  | missingOwnershipManifest
  | corruptManifest
  | unsupportedVersion (version : ℕ)
  | ownershipMismatch (expectedProject expectedCollection actualProject actualCollection : String)
  | legacyProjectMismatch

def scopeManifestVersion : ℕ := 1

namespace ScopeManifest

def fromScope (scope : DataPlaneScope) : ScopeManifest :=
  ⟨scopeManifestVersion, scope.projectId.asStr, scope.collectionId.asStr⟩

def «matches» (manifest : ScopeManifest) (scope : DataPlaneScope) : Prop :=
  manifest.version = scopeManifestVersion ∧ manifest.projectId = scope.projectId.asStr ∧
    manifest.collectionId = scope.collectionId.asStr

instance (manifest : ScopeManifest) (scope : DataPlaneScope) :
    Decidable (manifest.matches scope) := inferInstanceAs (Decidable (_ ∧ _))

end ScopeManifest

/-- The content of `scope.meta`. -/
inductive ManifestFile where
  | missing
  | unreadable
  | corrupt
  | decoded (manifest : ScopeManifest)

namespace ManifestFile

def validateExisting (file : ManifestFile) (scope : DataPlaneScope) : Except NamespaceError Unit :=
  match file with
  | .missing => .error .missingOwnershipManifest
  | .unreadable => .error .io
  | .corrupt => .error .corruptManifest
  | .decoded manifest =>
      if manifest.version ≠ scopeManifestVersion then
        .error (.unsupportedVersion manifest.version)
      else if ¬manifest.matches scope then
        .error (.ownershipMismatch scope.projectId.asStr scope.collectionId.asStr
          manifest.projectId manifest.collectionId)
      else .ok ()

/-- A missing manifest is written, one that is there must be right. -/
def validateOrInitialize (file : ManifestFile) (scope : DataPlaneScope) :
    Except NamespaceError Unit :=
  match file with
  | .missing => .ok ()
  | other => other.validateExisting scope

theorem validateExisting_fromScope (scope : DataPlaneScope) :
    (decoded (.fromScope scope)).validateExisting scope = .ok () := by
  have hversion : (ScopeManifest.fromScope scope).version = scopeManifestVersion := rfl
  have hmatches : (ScopeManifest.fromScope scope).matches scope := ⟨rfl, rfl, rfl⟩
  rw [validateExisting, if_neg (not_not.mpr hversion), if_neg (not_not.mpr hmatches)]

end ManifestFile

/-- The directory of a collection. -/
structure CollectionFiles (F : Type) where
  metadata : MetadataFile
  manifest : ManifestFile
  checkpoint : Except CheckpointError (Option Checkpoint)
  segments : SegmentsPath
  wal : Option Bytes
  hnsw : Option (DecodedSnapshot F)
  lexical : LexicalIndexStore

/-- A data directory with one collection: the project that the namespace catalog binds it
to, and its directory in the namespace of that project or among the unscoped ones. -/
structure DataDirectory (F : Type) where
  collectionId : CollectionId
  project : Option ProjectId
  namespaced : Option (CollectionFiles F)
  legacy : Option (CollectionFiles F)
  once : namespaced = none ∨ legacy = none

end Ketebe
