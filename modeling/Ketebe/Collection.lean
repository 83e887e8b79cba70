import Ketebe.Lib.SortedSet
import Ketebe.Predicate
import Mathlib.Data.List.DropRight

/-!
Collection configuration: metric, dimension, lexical fields and the ingestion
schema with its three exclusive chunking policies. Policies and configurations
carry the checks of their constructors.
-/
namespace Ketebe

open Lib.SortedSet

inductive DistanceMetric where
  | cosine
  | dot
  | l2
  deriving DecidableEq, Repr

inductive LexicalAnalyzerKind where
  | standard
  deriving DecidableEq, Repr

structure LexicalAnalyzerConfig where
  kind : LexicalAnalyzerKind
  lowercase : Bool
  deriving DecidableEq, Repr

def LexicalAnalyzerConfig.standard (lowercase : Bool) : LexicalAnalyzerConfig :=
  ⟨.standard, lowercase⟩

def LexicalAnalyzerConfig.default : LexicalAnalyzerConfig := .standard true

inductive TokenizerKind where
  | unicodeWordsV1
  deriving DecidableEq, Repr

inductive ChunkingStructure where
  | tokens
  | sentences
  | paragraphs
  | markdown
  | html
  deriving DecidableEq, Repr

structure ChunkingPolicy where
  maxChars : ℕ
  overlapChars : ℕ
  overlap_lt : overlapChars < maxChars
  deriving DecidableEq

def ChunkingPolicy.new (maxChars overlapChars : ℕ) : Except DomainError ChunkingPolicy :=
  if maxChars = 0 then
    .error (.invalidIngestionConfig "chunking max_chars must be greater than zero")
  else if h : overlapChars < maxChars then .ok ⟨maxChars, overlapChars, h⟩
  else .error (.invalidIngestionConfig "chunking overlap_chars must be smaller than max_chars")

structure TokenChunkingPolicy where
  structureKind : ChunkingStructure
  maxTokens : ℕ
  tokenOverlap : ℕ
  tokenizer : TokenizerKind
  overlap_lt : tokenOverlap < maxTokens
  deriving DecidableEq

def TokenChunkingPolicy.new (structureKind : ChunkingStructure) (maxTokens tokenOverlap : ℕ)
    (tokenizer : TokenizerKind) : Except DomainError TokenChunkingPolicy :=
  if maxTokens = 0 then
    .error (.invalidIngestionConfig "chunking max_tokens must be greater than zero")
  else if h : tokenOverlap < maxTokens then
    .ok ⟨structureKind, maxTokens, tokenOverlap, tokenizer, h⟩
  else .error (.invalidIngestionConfig "chunking token_overlap must be smaller than max_tokens")

structure SemanticChunkingPolicy where
  maxTokens : ℕ
  tokenOverlap : ℕ
  minTokens : ℕ
  breakpointThresholdMilli : ℕ
  tokenizer : TokenizerKind
  overlap_lt : tokenOverlap < maxTokens
  min_pos : 0 < minTokens
  min_le : minTokens ≤ maxTokens
  threshold_le : breakpointThresholdMilli ≤ 1000
  deriving DecidableEq

def SemanticChunkingPolicy.new (maxTokens tokenOverlap minTokens breakpointThresholdMilli : ℕ)
    (tokenizer : TokenizerKind) : Except DomainError SemanticChunkingPolicy :=
  if maxTokens = 0 then
    .error (.invalidIngestionConfig "semantic chunking max_tokens must be greater than zero")
  else if hoverlap : tokenOverlap < maxTokens then
    if hmin : 0 < minTokens ∧ minTokens ≤ maxTokens then
      if hthreshold : breakpointThresholdMilli ≤ 1000 then
        .ok ⟨maxTokens, tokenOverlap, minTokens, breakpointThresholdMilli, tokenizer, hoverlap,
          hmin.1, hmin.2, hthreshold⟩
      else .error (.invalidIngestionConfig
        "semantic chunking breakpoint threshold must be in 0..=1000")
    else .error (.invalidIngestionConfig "semantic chunking min_tokens must be in 1..=max_tokens")
  else .error (.invalidIngestionConfig
    "semantic chunking token_overlap must be smaller than max_tokens")

/-- How many chunking policies are configured. -/
def configuredModes (chunking : Option ChunkingPolicy) (tokenChunking : Option TokenChunkingPolicy)
    (semanticChunking : Option SemanticChunkingPolicy) : ℕ :=
  chunking.isSome.toNat + tokenChunking.isSome.toNat + semanticChunking.isSome.toNat

/-- Durable document-ingestion behavior owned by the collection schema. -/
structure CollectionIngestionConfig where
  embeddingProfile : String
  chunking : Option ChunkingPolicy
  tokenChunking : Option TokenChunkingPolicy
  semanticChunking : Option SemanticChunkingPolicy
  indexChunkText : Bool
  deriving DecidableEq

/-- The characters with the Unicode property `White_Space`. -/
def isWhitespace (character : Char) : Bool :=
  let code := character.toNat
  (0x9 ≤ code && code ≤ 0xd) || code == 0x20 || code == 0x85 || code == 0xa0 || code == 0x1680 ||
    (0x2000 ≤ code && code ≤ 0x200a) || code == 0x2028 || code == 0x2029 || code == 0x202f ||
    code == 0x205f || code == 0x3000

/-- `str::trim`. -/
def trim (value : String) : String :=
  String.ofList ((value.toList.dropWhile isWhitespace).rdropWhile isWhitespace)

namespace CollectionIngestionConfig

def build (embeddingProfile : String) (chunking : Option ChunkingPolicy)
    (tokenChunking : Option TokenChunkingPolicy)
    (semanticChunking : Option SemanticChunkingPolicy) (indexChunkText : Bool) :
    Except DomainError CollectionIngestionConfig :=
  if trim embeddingProfile = "" then
    .error (.invalidIngestionConfig "embedding_profile must not be empty")
  else if trim embeddingProfile ≠ embeddingProfile then
    .error (.invalidIngestionConfig
      "embedding_profile must not contain leading or trailing whitespace")
  else if 1 < configuredModes chunking tokenChunking semanticChunking then
    .error (.invalidIngestionConfig
      "character, token and semantic chunking policies are mutually exclusive")
  else if indexChunkText && configuredModes chunking tokenChunking semanticChunking == 0 then
    .error (.invalidIngestionConfig "index_chunk_text requires chunking to be configured")
  else .ok ⟨embeddingProfile, chunking, tokenChunking, semanticChunking, indexChunkText⟩

def new (embeddingProfile : String) (chunking : Option ChunkingPolicy) (indexChunkText : Bool) :
    Except DomainError CollectionIngestionConfig :=
  build embeddingProfile chunking none none indexChunkText

def newTokenized (embeddingProfile : String) (chunking : TokenChunkingPolicy)
    (indexChunkText : Bool) : Except DomainError CollectionIngestionConfig :=
  build embeddingProfile none (some chunking) none indexChunkText

def newSemantic (embeddingProfile : String) (chunking : SemanticChunkingPolicy)
    (indexChunkText : Bool) : Except DomainError CollectionIngestionConfig :=
  build embeddingProfile none none (some chunking) indexChunkText

def hasChunking (config : CollectionIngestionConfig) : Bool :=
  config.chunking.isSome || config.tokenChunking.isSome || config.semanticChunking.isSome

end CollectionIngestionConfig

/-- Immutable collection configuration. -/
structure CollectionConfig where
  id : CollectionId
  dimension : ℕ
  dimension_pos : 0 < dimension
  distanceMetric : DistanceMetric
  lexicalFields : List FieldPath
  lexicalAnalyzer : LexicalAnalyzerConfig
  ingestion : Option CollectionIngestionConfig
  deriving DecidableEq

namespace CollectionConfig

def new (id : CollectionId) (dimension : ℕ) (distanceMetric : DistanceMetric) :
    Except DomainError CollectionConfig :=
  if h : 0 < dimension then .ok ⟨id, dimension, h, distanceMetric, [], .default, none⟩
  else .error (.invalidDimension dimension)

/-- The field in which ingestion stores the text of a chunk. -/
def chunkTextField : FieldPath := ⟨"_ketebe_chunk", ["text"], by decide⟩

def ensureIngestionLexicalField (config : CollectionConfig) : CollectionConfig :=
  match config.ingestion with
  | some ingestion =>
      if ingestion.indexChunkText && !config.lexicalFields.contains chunkTextField then
        { config with lexicalFields := sortDedup (config.lexicalFields ++ [chunkTextField]) }
      else config
  | none => config

def withLexicalFields (config : CollectionConfig) (fields : List FieldPath) : CollectionConfig :=
  ensureIngestionLexicalField { config with lexicalFields := sortDedup fields }

def withLexicalAnalyzer (config : CollectionConfig) (analyzer : LexicalAnalyzerConfig) :
    CollectionConfig :=
  { config with lexicalAnalyzer := analyzer }

def withIngestion (config : CollectionConfig) (ingestion : CollectionIngestionConfig) :
    CollectionConfig :=
  ensureIngestionLexicalField { config with ingestion := some ingestion }

def validateVector (config : CollectionConfig) (vector : Vector) : Except DomainError Unit :=
  if vector.length ≠ config.dimension then
    .error (.vectorDimensionMismatch config.dimension vector.length)
  else .ok ()

def validateRecord (config : CollectionConfig) (record : Record) : Except DomainError Unit :=
  config.validateVector record.vector

/-- Schema updates keep the identity, the dimension and the metric. -/
theorem ensureIngestionLexicalField_eq (config : CollectionConfig) : ∃ fields,
    config.ensureIngestionLexicalField = { config with lexicalFields := fields } := by
  unfold ensureIngestionLexicalField
  split
  · split
    · exact ⟨_, rfl⟩
    · exact ⟨config.lexicalFields, rfl⟩
  · exact ⟨config.lexicalFields, rfl⟩

end CollectionConfig

end Ketebe
