import Ketebe.Doubles
import Ketebe.EmbeddingCache

/-!
Where documents come from. A stored document carries the hash of its normalised text and
what identifies its source; a later version of the document changes it when either differs.
-/
namespace Ketebe

open Lib.ByteCodec Lib.BinaryPrecision Ketebe.Embedding

/-! ### Sources -/

inductive SourceKind where
  | http
  | objectStore
  | kafka
  | file
  | connector (name : String)
  deriving DecidableEq

def SourceKind.connectorName : SourceKind → Option String
  | .connector name => some name
  | _ => none

/-- The value is neither empty nor blank, and has no white space around it. -/
def isTrimmed (value : String) : Bool := trim value != "" && trim value == value

structure SourceIdentity where
  kind : SourceKind
  uri : String
  externalId : Option String
  uri_trimmed : isTrimmed uri
  connector_trimmed : kind.connectorName.all isTrimmed
  externalId_trimmed : externalId.all isTrimmed
  deriving DecidableEq

def SourceIdentity.new (kind : SourceKind) (uri : String) (externalId : Option String) :
    Except DomainError SourceIdentity :=
  if huri : isTrimmed uri then
    if hconnector : kind.connectorName.all isTrimmed then
      if hexternal : externalId.all isTrimmed then
        .ok ⟨kind, uri, externalId, huri, hconnector, hexternal⟩
      else .error (.invalidIngestionConfig
        "source external_id must be non-empty and trimmed when provided")
    else .error (.invalidIngestionConfig "source connector name must be non-empty and trimmed")
  else .error (.invalidIngestionConfig "source uri must be non-empty and trimmed")

structure SourceRevision where
  version : Option String
  etag : Option String
  revision : Option String
  version_trimmed : version.all isTrimmed
  etag_trimmed : etag.all isTrimmed
  revision_trimmed : revision.all isTrimmed
  deriving DecidableEq

def SourceRevision.untrimmed (name : String) : DomainError :=
  .invalidIngestionConfig ("source " ++ name ++ " must be non-empty and trimmed when provided")

def SourceRevision.new (version etag revision : Option String) :
    Except DomainError SourceRevision :=
  if hversion : version.all isTrimmed then
    if hetag : etag.all isTrimmed then
      if hrevision : revision.all isTrimmed then
        .ok ⟨version, etag, revision, hversion, hetag, hrevision⟩
      else .error (untrimmed "revision")
    else .error (untrimmed "etag")
  else .error (untrimmed "version")

structure DocumentSource where
  identity : SourceIdentity
  revision : SourceRevision
  observedAtUnixMs : Option UInt64
  deriving DecidableEq

/-! ### Requests -/

inductive ProvenanceError where
  | reservedMetadata
  | invalidSource (error : DomainError)
  deriving DecidableEq

inductive SourceKindDto where
  | http
  | objectStore
  | kafka
  | file
  | connector
  deriving DecidableEq

structure DocumentSourceDto where
  kind : SourceKindDto
  uri : String
  connector : Option String
  externalId : Option String
  version : Option String
  etag : Option String
  revision : Option String
  observedAtUnixMs : Option UInt64
  deriving DecidableEq

def rejectConnectorName (value : Option String) : Except ProvenanceError Unit :=
  if value.isSome then
    .error (.invalidSource
      (.invalidIngestionConfig "source connector is only valid for connector kind"))
  else .ok ()

def DocumentSourceDto.sourceKind (dto : DocumentSourceDto) : Except ProvenanceError SourceKind :=
  match dto.kind with
  | .http => do
      rejectConnectorName dto.connector
      pure .http
  | .objectStore => do
      rejectConnectorName dto.connector
      pure .objectStore
  | .kafka => do
      rejectConnectorName dto.connector
      pure .kafka
  | .file => do
      rejectConnectorName dto.connector
      pure .file
  | .connector =>
      match dto.connector with
      | some name => .ok (.connector name)
      | none => .error (.invalidSource
          (.invalidIngestionConfig "source connector must be provided for connector kind"))

def DocumentSourceDto.intoDomain (dto : DocumentSourceDto) :
    Except ProvenanceError DocumentSource := do
  let kind ← dto.sourceKind
  let identity ← (SourceIdentity.new kind dto.uri dto.externalId).mapError .invalidSource
  let revision ← (SourceRevision.new dto.version dto.etag dto.revision).mapError .invalidSource
  pure ⟨identity, revision, dto.observedAtUnixMs⟩

theorem SourceIdentity.of_new {kind : SourceKind} {uri : String} {externalId : Option String}
    {identity : SourceIdentity} (h : new kind uri externalId = .ok identity) :
    identity.kind = kind ∧ identity.uri = uri ∧ identity.externalId = externalId := by
  unfold new at h
  split at h
  · split at h
    · split at h
      · cases h
        exact ⟨rfl, rfl, rfl⟩
      · cases h
    · cases h
  · cases h

theorem SourceRevision.of_new {version etag revision : Option String} {built : SourceRevision}
    (h : new version etag revision = .ok built) :
    built.version = version ∧ built.etag = etag ∧ built.revision = revision := by
  unfold new at h
  split at h
  · split at h
    · split at h
      · cases h
        exact ⟨rfl, rfl, rfl⟩
      · cases h
    · cases h
  · cases h

/-- A connector is named exactly by the sources of that kind. -/
theorem DocumentSourceDto.connectorName_of_sourceKind {dto : DocumentSourceDto} {kind : SourceKind}
    (h : dto.sourceKind = .ok kind) : kind.connectorName = dto.connector := by
  unfold sourceKind at h
  cases hkind : dto.kind <;> cases hconnector : dto.connector <;>
    rw [hkind, hconnector] at h <;> cases h <;> rfl

/-- An accepted source says what its request said. -/
theorem DocumentSourceDto.of_intoDomain {dto : DocumentSourceDto} {source : DocumentSource}
    (h : dto.intoDomain = .ok source) :
    source.identity.kind.connectorName = dto.connector ∧ source.identity.uri = dto.uri ∧
      source.identity.externalId = dto.externalId ∧ source.revision.version = dto.version ∧
      source.revision.etag = dto.etag ∧ source.revision.revision = dto.revision ∧
      source.observedAtUnixMs = dto.observedAtUnixMs := by
  obtain ⟨kind, hkind, h⟩ := except_bind_ok.mp h
  obtain ⟨identity, hidentity, h⟩ := except_bind_ok.mp h
  obtain ⟨revision, hrevision, h⟩ := except_bind_ok.mp h
  obtain ⟨hsame, huri, hexternal⟩ := SourceIdentity.of_new (mapError_ok_iff.mp hidentity)
  obtain ⟨hversion, hetag, hrevision⟩ := SourceRevision.of_new (mapError_ok_iff.mp hrevision)
  obtain rfl := Except.ok.inj h
  have hconnector := connectorName_of_sourceKind hkind
  rw [← hsame] at hconnector
  exact ⟨hconnector, huri, hexternal, hversion, hetag, hrevision, rfl⟩

/-! ### Stored provenance -/

def sourceMetadataKey : String := "_ketebe_source"

def contentMetadataKey : String := "_ketebe_content"

inductive SourceChange where
  | unchanged
  | changed
  deriving DecidableEq, Repr

def textValue (value : String) : OrderedValue := ⟨.string value, trivial⟩

def numberValue (value : UInt64) : OrderedValue := ⟨.number (F64.ofUInt64 value), trivial⟩

namespace Metadata

/-- Inserts a value that is there. -/
def insertOption (metadata : Metadata) (key : String) : Option OrderedValue → Metadata
  | some value => metadata.insert key value
  | none => metadata

theorem get_insert (metadata : Metadata) (key other : String) (value : OrderedValue) :
    (metadata.insert key value).get other =
      if other = key then some value.1 else metadata.get other :=
  getField_insertField

theorem get_empty (key : String) : empty.get key = none := rfl

theorem get_insertOption (metadata : Metadata) (key other : String) (value : Option OrderedValue) :
    (metadata.insertOption key value).get other =
      if other = key then (value.map Subtype.val).or (metadata.get other)
      else metadata.get other := by
  cases value with
  | none => rw [insertOption, Option.map_none, Option.none_or, ite_self]
  | some value => exact get_insert metadata key other value

end Metadata

theorem ordered_of_getField {key : String} {value : MetadataValue} {fields : Fields}
    (hordered : OrderedFields fields) (h : getField key fields = some value) : value.Ordered := by
  induction fields with
  | nil => cases h
  | cons head rest ih =>
    obtain ⟨name, first⟩ := head
    obtain ⟨-, hfirst, hrest⟩ := hordered
    simp only [getField] at h
    split at h
    · cases h
      exact hfirst
    · exact ih hrest h

/-- The object under a key. -/
def Metadata.getObject (metadata : Metadata) (key : String) : Option Metadata :=
  match h : metadata.get key with
  | some (.object fields) => some ⟨fields, ordered_of_getField metadata.ordered h⟩
  | _ => none

def SourceKind.text : SourceKind → String
  | .http => "http"
  | .objectStore => "object_store"
  | .kafka => "kafka"
  | .file => "file"
  | .connector _ => "connector"

def sourceMetadata (source : DocumentSource) (ingestedAt : UInt64) : Metadata :=
  let output := (Metadata.empty.insert "kind" (textValue source.identity.kind.text)).insertOption
    "connector" (source.identity.kind.connectorName.map textValue)
  let output := output.insert "uri" (textValue source.identity.uri)
  let output := output.insertOption "external_id" (source.identity.externalId.map textValue)
  let output := output.insertOption "version" (source.revision.version.map textValue)
  let output := output.insertOption "etag" (source.revision.etag.map textValue)
  let output := output.insertOption "revision" (source.revision.revision.map textValue)
  let output := output.insertOption "observed_at_unix_ms"
    (source.observedAtUnixMs.map numberValue)
  output.insert "ingested_at_unix_ms" (numberValue ingestedAt)

section Hash

variable (sha256 : Bytes → Bytes)

/-- The metadata of the document as it is stored, and the hash of its text. -/
def applyDocumentProvenance (metadata : Metadata) (source : Option DocumentSource) (text : String)
    (ingestedAt : UInt64) : Except ProvenanceError (Metadata × String) :=
  if (metadata.get sourceMetadataKey).isSome || (metadata.get contentMetadataKey).isSome then
    .error .reservedMetadata
  else
    let documentHash := canonicalContentHash sha256 text
    let content := ((Metadata.empty.insert "normalization" (textValue "line_endings_v1")).insert
      "document_sha256" (textValue documentHash)).insert "ingested_at_unix_ms"
        (numberValue ingestedAt)
    let metadata := metadata.insert contentMetadataKey content.toValue
    match source with
    | some source =>
        .ok (metadata.insert sourceMetadataKey (sourceMetadata source ingestedAt).toValue,
          documentHash)
    | none => .ok (metadata, documentHash)

/-- A value under the key that is not an object stays as it is. -/
def applyChunkContentHash (metadata : Metadata) (chunkText : String) : Metadata :=
  let hash := canonicalContentHash sha256 chunkText
  match metadata.get contentMetadataKey, metadata.getObject contentMetadataKey with
  | none, _ => metadata.insert contentMetadataKey
      (Metadata.empty.insert "chunk_sha256" (textValue hash)).toValue
  | some _, some content => metadata.insert contentMetadataKey
      (content.insert "chunk_sha256" (textValue hash)).toValue
  | some _, none => metadata

/-- The derived equality of optional values. -/
def eqOptional : Option MetadataValue → Option MetadataValue → Bool
  | none, none => true
  | some left, some right => left.eqValue right
  | _, _ => false

def comparedKeys : List String :=
  ["kind", "connector", "uri", "external_id", "version", "etag", "revision",
    "observed_at_unix_ms"]

def detectSourceChange (existing : Metadata) (source : Option DocumentSource) (text : String) :
    SourceChange :=
  match existing.getObject contentMetadataKey with
  | none => .changed
  | some content =>
      match content.get "document_sha256" with
      | some (.string value) =>
          if value = canonicalContentHash sha256 text then
            match existing.get sourceMetadataKey, existing.getObject sourceMetadataKey, source with
            | none, _, none => .unchanged
            | some _, some current, some source =>
                let candidate := sourceMetadata source 0
                if comparedKeys.all fun key =>
                    eqOptional (current.get key) (candidate.get key) then .unchanged
                else .changed
            | _, _, _ => .changed
          else .changed
      | _ => .changed

end Hash

/-! ### What stays stored -/

theorem getObject_eq_some {metadata object : Metadata} {key : String} :
    metadata.getObject key = some object ↔ metadata.get key = some (.object object.fields) := by
  unfold Metadata.getObject
  split
  · rename_i fields hfields
    constructor
    · intro h
      have hsame : fields = object.fields := congrArg Metadata.fields (Option.some.inj h)
      rw [← hsame]
      exact hfields
    · intro h
      have hsame : fields = object.fields :=
        MetadataValue.object.inj (Option.some.inj (hfields.symm.trans h))
      exact congrArg some (Metadata.ext hsame)
  · rename_i hother
    constructor
    · intro h
      cases h
    · intro h
      exact absurd h (hother _)

theorem getObject_insert (metadata object : Metadata) (key : String) :
    (metadata.insert key object.toValue).getObject key = some object :=
  getObject_eq_some.mpr ((Metadata.get_insert ..).trans (if_pos rfl))

theorem getObject_insert_of_ne (metadata : Metadata) {key other : String} (value : OrderedValue)
    (h : other ≠ key) : (metadata.insert key value).getObject other = metadata.getObject other := by
  apply Option.ext
  intro object
  rw [getObject_eq_some, getObject_eq_some, Metadata.get_insert, if_neg h]

theorem sourceKey_ne_contentKey : sourceMetadataKey ≠ contentMetadataKey := by decide

/-- The metadata of a stored document with this hash and source. -/
structure Stored (metadata : Metadata) (documentHash : String) (source : Option Metadata) :
    Prop where
  content : ∃ content, metadata.getObject contentMetadataKey = some content ∧
    content.get "document_sha256" = some (.string documentHash)
  source : metadata.get sourceMetadataKey = source.map fun source => .object source.fields

section Stored

variable {sha256 : Bytes → Bytes} {metadata : Metadata} {documentHash : String}

theorem applyDocumentProvenance_stored (hsource : metadata.get sourceMetadataKey = none)
    (hcontent : metadata.get contentMetadataKey = none) (source : Option DocumentSource)
    (text : String) (ingestedAt : UInt64) : ∃ stored,
      applyDocumentProvenance sha256 metadata source text ingestedAt =
        .ok (stored, canonicalContentHash sha256 text) ∧
      Stored stored (canonicalContentHash sha256 text)
        (source.map fun source => sourceMetadata source ingestedAt) := by
  have hfree : ((metadata.get sourceMetadataKey).isSome ||
      (metadata.get contentMetadataKey).isSome) = false := by
    rw [hsource, hcontent]
    rfl
  simp only [applyDocumentProvenance, hfree, Bool.false_eq_true, if_false]
  cases source with
  | none =>
    refine ⟨_, rfl, ⟨_, getObject_insert .., ?_⟩, ?_⟩
    · rw [Metadata.get_insert, if_neg (by decide), Metadata.get_insert, if_pos rfl]
      rfl
    · rw [Metadata.get_insert, if_neg sourceKey_ne_contentKey, hsource]
      rfl
  | some source =>
    refine ⟨_, rfl, ⟨_, (getObject_insert_of_ne _ _ sourceKey_ne_contentKey.symm).trans
      (getObject_insert ..), ?_⟩, ?_⟩
    · rw [Metadata.get_insert, if_neg (by decide), Metadata.get_insert, if_pos rfl]
      rfl
    · rw [Metadata.get_insert, if_pos rfl]
      rfl

/-- The hash of a chunk changes neither the document's hash nor its source. -/
theorem Stored.applyChunkContentHash {source : Option Metadata}
    (h : Stored metadata documentHash source) (chunkText : String) :
    Stored (applyChunkContentHash sha256 metadata chunkText) documentHash source := by
  obtain ⟨content, hcontent, hhash⟩ := h.content
  have hvalue := getObject_eq_some.mp hcontent
  simp only [Ketebe.applyChunkContentHash, hcontent, hvalue]
  refine ⟨⟨_, getObject_insert .., ?_⟩, ?_⟩
  · rw [Metadata.get_insert, if_neg (by decide), hhash]
  · rw [Metadata.get_insert, if_neg sourceKey_ne_contentKey, h.source]

theorem Stored.applyChunkContentHashes {source : Option Metadata}
    (h : Stored metadata documentHash source) (chunkTexts : List String) :
    Stored (chunkTexts.foldl (Ketebe.applyChunkContentHash sha256) metadata) documentHash
      source := by
  induction chunkTexts generalizing metadata with
  | nil => exact h
  | cons chunkText rest ih => exact ih (h.applyChunkContentHash chunkText)

/-- The source agrees with what is stored of one. -/
def SourceMatches (stored : Option Metadata) (source : Option DocumentSource) : Prop :=
  match stored, source with
  | none, none => True
  | some current, some source => comparedKeys.all fun key =>
      eqOptional (current.get key) ((sourceMetadata source 0).get key)
  | _, _ => False

theorem detectSourceChange_unchanged_iff {stored : Option Metadata}
    (h : Stored metadata documentHash stored) (source : Option DocumentSource) (text : String) :
    detectSourceChange sha256 metadata source text = .unchanged ↔
      documentHash = canonicalContentHash sha256 text ∧ SourceMatches stored source := by
  obtain ⟨content, hcontent, hhash⟩ := h.content
  simp only [detectSourceChange, hcontent, hhash]
  by_cases hsame : documentHash = canonicalContentHash sha256 text
  · rw [if_pos hsame, and_iff_right hsame]
    have hsource := h.source
    cases stored with
    | none =>
      simp only [Option.map_none] at hsource
      cases source with
      | none => simp only [hsource, SourceMatches]
      | some source => simp only [hsource, SourceMatches, reduceCtorEq]
    | some current =>
      have hobject := getObject_eq_some.mpr hsource
      simp only [Option.map_some] at hsource
      cases source with
      | none => simp only [hsource, hobject, SourceMatches, reduceCtorEq]
      | some source =>
        simp only [hsource, hobject, SourceMatches]
        split
        · rename_i hmatches
          exact iff_of_true rfl hmatches
        · rename_i hmatches
          exact iff_of_false nofun hmatches
  · rw [if_neg hsame]
    exact iff_of_false nofun fun h => hsame h.1

end Stored

/-! ### Equal sources -/

/-- The time of observation, if any, is one that a float holds exactly. -/
def DocumentSource.ExactTime (source : DocumentSource) : Prop :=
  ∀ value ∈ source.observedAtUnixMs, value.toNat < 2 ^ 53

theorem eqOptional_text {first second : Option String} :
    eqOptional ((first.map textValue).map Subtype.val) ((second.map textValue).map Subtype.val) ↔
      first = second := by
  cases first with
  | none =>
    cases second with
    | none => exact iff_of_true rfl rfl
    | some other => exact iff_of_false Bool.false_ne_true nofun
  | some value =>
    cases second with
    | none => exact iff_of_false Bool.false_ne_true nofun
    | some other =>
      rw [Option.some.injEq]
      exact beq_iff_eq

theorem eqOptional_number {first second : Option UInt64}
    (hfirst : ∀ value ∈ first, value.toNat < 2 ^ 53)
    (hsecond : ∀ value ∈ second, value.toNat < 2 ^ 53) :
    eqOptional ((first.map numberValue).map Subtype.val)
        ((second.map numberValue).map Subtype.val) ↔ first = second := by
  cases first with
  | none =>
    cases second with
    | none => exact iff_of_true rfl rfl
    | some other => exact iff_of_false Bool.false_ne_true nofun
  | some value =>
    cases second with
    | none => exact iff_of_false Bool.false_ne_true nofun
    | some other =>
      rw [Option.some.injEq]
      exact F64.eqIeee_ofUInt64 (hfirst value rfl) (hsecond other rfl)

theorem kind_eq_iff {first second : SourceKind} :
    first = second ↔ first.text = second.text ∧ first.connectorName = second.connectorName := by
  constructor
  · rintro rfl
    exact ⟨rfl, rfl⟩
  · intro h
    cases first <;> cases second <;> simp_all [SourceKind.text, SourceKind.connectorName]

theorem DocumentSource.eq_iff {first second : DocumentSource} : first = second ↔
    first.identity.kind = second.identity.kind ∧ first.identity.uri = second.identity.uri ∧
      first.identity.externalId = second.identity.externalId ∧
      first.revision.version = second.revision.version ∧
      first.revision.etag = second.revision.etag ∧
      first.revision.revision = second.revision.revision ∧
      first.observedAtUnixMs = second.observedAtUnixMs := by
  constructor
  · rintro rfl
    exact ⟨rfl, rfl, rfl, rfl, rfl, rfl, rfl⟩
  · obtain ⟨⟨kind, uri, externalId, -⟩, ⟨version, etag, revision, -⟩, observed⟩ := first
    obtain ⟨⟨kind', uri', externalId', -⟩, ⟨version', etag', revision', -⟩, observed'⟩ := second
    rintro ⟨rfl, rfl, rfl, rfl, rfl, rfl, rfl⟩
    rfl

/-- Every compared field is stored under its own key. -/
theorem get_sourceMetadata (source : DocumentSource) (now : UInt64) :
    comparedKeys.map (sourceMetadata source now).get =
      ([some source.identity.kind.text, source.identity.kind.connectorName,
          some source.identity.uri, source.identity.externalId, source.revision.version,
          source.revision.etag, source.revision.revision].map fun value =>
            (value.map textValue).map Subtype.val) ++
        [(source.observedAtUnixMs.map numberValue).map Subtype.val] := by
  simp [comparedKeys, sourceMetadata, Metadata.get_insert, Metadata.get_insertOption,
    Metadata.get_empty]

theorem comparedKeys_iff {first second : DocumentSource} (hfirst : first.ExactTime)
    (hsecond : second.ExactTime) (ingestedAt candidateAt : UInt64) :
    (comparedKeys.all fun key => eqOptional ((sourceMetadata first ingestedAt).get key)
      ((sourceMetadata second candidateAt).get key)) ↔ first = second := by
  have hall : (comparedKeys.all fun key => eqOptional ((sourceMetadata first ingestedAt).get key)
      ((sourceMetadata second candidateAt).get key)) =
        (List.zipWith eqOptional (comparedKeys.map (sourceMetadata first ingestedAt).get)
          (comparedKeys.map (sourceMetadata second candidateAt).get)).all id := rfl
  rw [hall, get_sourceMetadata, get_sourceMetadata, DocumentSource.eq_iff, kind_eq_iff]
  simp only [List.map_cons, List.map_nil, List.cons_append, List.nil_append,
    List.zipWith_cons_cons, List.zipWith_nil_left, List.all_cons, List.all_nil, id_eq,
    Bool.and_eq_true, eqOptional_text, eqOptional_number hfirst hsecond, Option.some.injEq,
    and_true, and_assoc]

theorem sourceMatches_iff {first second : Option DocumentSource}
    (hfirst : ∀ source ∈ first, source.ExactTime) (hsecond : ∀ source ∈ second, source.ExactTime)
    (ingestedAt : UInt64) :
    SourceMatches (first.map fun source => sourceMetadata source ingestedAt) second ↔
      first = second := by
  cases first with
  | none =>
    cases second with
    | none => exact iff_of_true trivial rfl
    | some other => exact iff_of_false id nofun
  | some source =>
    cases second with
    | none => exact iff_of_false id nofun
    | some other =>
      rw [Option.some.injEq]
      exact comparedKeys_iff (hfirst source rfl) (hsecond other rfl) ingestedAt 0

/-! ### Changes -/

theorem canonicalContentHash_eq_iff {sha256 : Bytes → Bytes}
    (hsha256 : Function.Injective sha256) {first second : String} :
    canonicalContentHash sha256 first = canonicalContentHash sha256 second ↔
      normalizeContent first = normalizeContent second := by
  constructor
  · intro h
    exact utf8_injective (hsha256 (hexEncode_injective h))
  · intro h
    rw [canonicalContentHash, h]
    rfl

/-- A stored document is unchanged exactly when its normalised text and its source are. -/
theorem unchanged_iff {sha256 : Bytes → Bytes} (hsha256 : Function.Injective sha256)
    {metadata : Metadata} (hsource : metadata.get sourceMetadataKey = none)
    (hcontent : metadata.get contentMetadataKey = none) {first second : Option DocumentSource}
    (hfirst : ∀ source ∈ first, source.ExactTime) (hsecond : ∀ source ∈ second, source.ExactTime)
    (text other : String) (ingestedAt : UInt64) (chunkTexts : List String) :
    ∃ stored documentHash, applyDocumentProvenance sha256 metadata first text ingestedAt =
        .ok (stored, documentHash) ∧
      (detectSourceChange sha256
          (chunkTexts.foldl (applyChunkContentHash sha256) stored) second other = .unchanged ↔
        normalizeContent text = normalizeContent other ∧ first = second) := by
  obtain ⟨stored, happlied, hstored⟩ :=
    @applyDocumentProvenance_stored sha256 metadata hsource hcontent first text ingestedAt
  refine ⟨stored, _, happlied, ?_⟩
  rw [detectSourceChange_unchanged_iff (hstored.applyChunkContentHashes chunkTexts),
    canonicalContentHash_eq_iff hsha256, sourceMatches_iff hfirst hsecond]

/-- A file seen at a fixed time. -/
def fileSource : DocumentSource where
  identity := ⟨.file, "notes.md", none, by decide, rfl, rfl⟩
  revision := ⟨none, none, none, rfl, rfl, rfl⟩
  observedAtUnixMs := some 7

theorem unchanged_iff_plain :
    ∃ stored documentHash,
      applyDocumentProvenance id Metadata.empty (some fileSource) "a\r\nb" 9 =
        .ok (stored, documentHash) ∧
      (detectSourceChange id (["a"].foldl (applyChunkContentHash id) stored) (some fileSource)
          "a\nb" = .unchanged ↔
        normalizeContent "a\r\nb" = normalizeContent "a\nb" ∧
          some fileSource = some fileSource) := by
  have hexact : ∀ source ∈ some fileSource, source.ExactTime := by
    rintro _ ⟨⟩ _ ⟨⟩
    decide
  exact unchanged_iff Function.injective_id rfl rfl hexact hexact "a\r\nb" "a\nb" 9 ["a"]

end Ketebe
