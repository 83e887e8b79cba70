import Ketebe.Lib.CachedFile
import Ketebe.ProfileCutover

/-!
The metadata file of a collection. A new version is written to a temporary file
that must not exist yet and then renamed over the file; nothing removes a
temporary file that a crash leaves behind.
-/
namespace Ketebe

open Lib.ByteCodec Lib.Durable Lib.Durable.Program Lib.SortedSet
open Lib.CachedFile (Volume)

/-! ### The persisted form -/

structure PersistedChunkingPolicy where
  maxChars : ℕ
  overlapChars : ℕ

structure PersistedTokenChunkingPolicy where
  structureKind : ChunkingStructure
  maxTokens : ℕ
  tokenOverlap : ℕ
  tokenizer : TokenizerKind

structure PersistedSemanticChunkingPolicy where
  maxTokens : ℕ
  tokenOverlap : ℕ
  minTokens : ℕ
  breakpointThresholdMilli : ℕ
  tokenizer : TokenizerKind

structure PersistedIngestionConfig where
  embeddingProfile : String
  chunking : Option PersistedChunkingPolicy
  tokenChunking : Option PersistedTokenChunkingPolicy
  semanticChunking : Option PersistedSemanticChunkingPolicy
  indexChunkText : Bool

structure PersistedCollection where
  version : ℕ
  id : String
  dimension : ℕ
  metric : DistanceMetric
  lexicalFields : List (List String)
  lexicalAnalyzer : LexicalAnalyzerConfig
  ingestion : Option PersistedIngestionConfig

inductive MetadataError where
  | unsupportedCollectionVersion (version : ℕ)
  | invalidCollectionMetadata (message : String)

namespace PersistedChunkingPolicy

def ofPolicy (policy : ChunkingPolicy) : PersistedChunkingPolicy :=
  ⟨policy.maxChars, policy.overlapChars⟩

def intoDomain (policy : PersistedChunkingPolicy) : Except DomainError ChunkingPolicy :=
  ChunkingPolicy.new policy.maxChars policy.overlapChars

theorem intoDomain_ofPolicy (policy : ChunkingPolicy) :
    (ofPolicy policy).intoDomain = .ok policy := by
  have hpositive : policy.maxChars ≠ 0 := by
    have hlt := policy.overlap_lt
    omega
  exact (if_neg hpositive).trans (dif_pos policy.overlap_lt)

end PersistedChunkingPolicy

namespace PersistedTokenChunkingPolicy

def ofPolicy (policy : TokenChunkingPolicy) : PersistedTokenChunkingPolicy :=
  ⟨policy.structureKind, policy.maxTokens, policy.tokenOverlap, policy.tokenizer⟩

def intoDomain (policy : PersistedTokenChunkingPolicy) : Except DomainError TokenChunkingPolicy :=
  TokenChunkingPolicy.new policy.structureKind policy.maxTokens policy.tokenOverlap policy.tokenizer

theorem intoDomain_ofPolicy (policy : TokenChunkingPolicy) :
    (ofPolicy policy).intoDomain = .ok policy := by
  have hpositive : policy.maxTokens ≠ 0 := by
    have hlt := policy.overlap_lt
    omega
  exact (if_neg hpositive).trans (dif_pos policy.overlap_lt)

end PersistedTokenChunkingPolicy

namespace PersistedSemanticChunkingPolicy

def ofPolicy (policy : SemanticChunkingPolicy) : PersistedSemanticChunkingPolicy :=
  ⟨policy.maxTokens, policy.tokenOverlap, policy.minTokens, policy.breakpointThresholdMilli,
    policy.tokenizer⟩

def intoDomain (policy : PersistedSemanticChunkingPolicy) :
    Except DomainError SemanticChunkingPolicy :=
  SemanticChunkingPolicy.new policy.maxTokens policy.tokenOverlap policy.minTokens
    policy.breakpointThresholdMilli policy.tokenizer

theorem intoDomain_ofPolicy (policy : SemanticChunkingPolicy) :
    (ofPolicy policy).intoDomain = .ok policy := by
  have hpositive : policy.maxTokens ≠ 0 := by
    have hlt := policy.overlap_lt
    omega
  show SemanticChunkingPolicy.new policy.maxTokens policy.tokenOverlap policy.minTokens
    policy.breakpointThresholdMilli policy.tokenizer = _
  rw [SemanticChunkingPolicy.new, if_neg hpositive, dif_pos policy.overlap_lt,
    dif_pos ⟨policy.min_pos, policy.min_le⟩, dif_pos policy.threshold_le]

end PersistedSemanticChunkingPolicy

def invalidMetadata (error : DomainError) : MetadataError :=
  .invalidCollectionMetadata error.display

namespace PersistedIngestionConfig

def ofConfig (config : CollectionIngestionConfig) : PersistedIngestionConfig where
  embeddingProfile := config.embeddingProfile
  chunking := config.chunking.map .ofPolicy
  tokenChunking := config.tokenChunking.map .ofPolicy
  semanticChunking := config.semanticChunking.map .ofPolicy
  indexChunkText := config.indexChunkText

def intoDomain (config : PersistedIngestionConfig) :
    Except MetadataError CollectionIngestionConfig :=
  if 1 < config.chunking.isSome.toNat + config.tokenChunking.isSome.toNat +
      config.semanticChunking.isSome.toNat then
    .error (.invalidCollectionMetadata "multiple chunking modes configured")
  else match config.semanticChunking, config.tokenChunking with
    | some value, _ => do
      let chunking ← value.intoDomain.mapError invalidMetadata
      (CollectionIngestionConfig.newSemantic config.embeddingProfile chunking
        config.indexChunkText).mapError invalidMetadata
    | none, some value => do
      let chunking ← value.intoDomain.mapError invalidMetadata
      (CollectionIngestionConfig.newTokenized config.embeddingProfile chunking
        config.indexChunkText).mapError invalidMetadata
    | none, none => do
      let chunking ← (config.chunking.mapM PersistedChunkingPolicy.intoDomain).mapError
        invalidMetadata
      (CollectionIngestionConfig.new config.embeddingProfile chunking
        config.indexChunkText).mapError invalidMetadata

end PersistedIngestionConfig

namespace PersistedCollection

def ofConfig (config : CollectionConfig) : PersistedCollection where
  version := 6
  id := config.id.asStr
  dimension := config.dimension
  metric := config.distanceMetric
  lexicalFields := config.lexicalFields.map FieldPath.segments
  lexicalAnalyzer := config.lexicalAnalyzer
  ingestion := config.ingestion.map .ofConfig

/-- What recovery makes of the file. -/
def intoDomain (collection : PersistedCollection) : Except MetadataError CollectionConfig :=
  if ¬(1 ≤ collection.version ∧ collection.version ≤ 6) then
    .error (.unsupportedCollectionVersion collection.version)
  else do
    let id ← (CollectionId.new collection.id).mapError invalidMetadata
    let lexicalFields ← collection.lexicalFields.mapM fun segments =>
      (FieldPath.new segments).mapError fun error =>
        MetadataError.invalidCollectionMetadata error.display
    let ingestion ← collection.ingestion.mapM PersistedIngestionConfig.intoDomain
    let config ← (CollectionConfig.new id collection.dimension collection.metric).mapError
      invalidMetadata
    let updated := (config.withLexicalFields lexicalFields).withLexicalAnalyzer
      collection.lexicalAnalyzer
    match ingestion with
    | some ingestion => pure (updated.withIngestion ingestion)
    | none => pure updated

end PersistedCollection

/-! ### What was written is read back -/

theorem PersistedIngestionConfig.intoDomain_ofConfig {config : CollectionIngestionConfig}
    (h : config.Checked) : (ofConfig config).intoDomain = .ok config := by
  obtain ⟨-, -, hmodes, -, -⟩ := CollectionIngestionConfig.build_ok_iff.mp h
  have hsingle : ¬1 < (ofConfig config).chunking.isSome.toNat +
      (ofConfig config).tokenChunking.isSome.toNat +
        (ofConfig config).semanticChunking.isSome.toNat := by
    simp only [ofConfig, Option.isSome_map]
    exact Nat.not_lt.mpr hmodes
  rw [intoDomain, if_neg hsingle]
  obtain ⟨profile, chunking, tokenChunking, semanticChunking, indexChunkText⟩ := config
  cases semanticChunking with
  | some semantic =>
    have hnone : chunking = none ∧ tokenChunking = none := by
      unfold configuredModes at hmodes
      cases chunking <;> cases tokenChunking <;> simp_all
    obtain ⟨rfl, rfl⟩ := hnone
    have hnew : CollectionIngestionConfig.newSemantic profile semantic indexChunkText =
      .ok ⟨profile, none, none, some semantic, indexChunkText⟩ := h
    show ((PersistedSemanticChunkingPolicy.ofPolicy semantic).intoDomain.mapError
      invalidMetadata >>= fun chunking =>
        (CollectionIngestionConfig.newSemantic profile chunking indexChunkText).mapError
          invalidMetadata) = _
    rw [PersistedSemanticChunkingPolicy.intoDomain_ofPolicy, Except.mapError, except_ok_bind, hnew,
      Except.mapError]
  | none =>
    cases tokenChunking with
    | some token =>
      have hnone : chunking = none := by
        unfold configuredModes at hmodes
        cases chunking <;> simp_all
      subst hnone
      have hnew : CollectionIngestionConfig.newTokenized profile token indexChunkText =
        .ok ⟨profile, none, some token, none, indexChunkText⟩ := h
      show ((PersistedTokenChunkingPolicy.ofPolicy token).intoDomain.mapError
        invalidMetadata >>= fun chunking =>
          (CollectionIngestionConfig.newTokenized profile chunking indexChunkText).mapError
            invalidMetadata) = _
      rw [PersistedTokenChunkingPolicy.intoDomain_ofPolicy, Except.mapError, except_ok_bind, hnew,
        Except.mapError]
    | none =>
      have hnew : CollectionIngestionConfig.new profile chunking indexChunkText =
        .ok ⟨profile, chunking, none, none, indexChunkText⟩ := h
      have hchunking : ((chunking.map PersistedChunkingPolicy.ofPolicy).mapM
          PersistedChunkingPolicy.intoDomain).mapError invalidMetadata = .ok chunking := by
        cases chunking with
        | none => rfl
        | some policy =>
          rw [Option.map_some, Option.mapM_some, PersistedChunkingPolicy.intoDomain_ofPolicy]
          rfl
      show ((chunking.map PersistedChunkingPolicy.ofPolicy).mapM
        PersistedChunkingPolicy.intoDomain).mapError invalidMetadata >>= (fun chunking =>
          (CollectionIngestionConfig.new profile chunking indexChunkText).mapError
            invalidMetadata) = _
      rw [hchunking, except_ok_bind, hnew, Except.mapError]

theorem FieldPath.new_segments (path : FieldPath) : FieldPath.new path.segments = .ok path :=
  dif_pos path.nonempty

theorem PersistedCollection.intoDomain_ofConfig {id : CollectionId} {config : CollectionConfig}
    (h : CollectionConfig.Canonical id config) : (ofConfig config).intoDomain = .ok config := by
  have hfields : (config.lexicalFields.map FieldPath.segments).mapM (fun segments =>
      (FieldPath.new segments).mapError fun error =>
        MetadataError.invalidCollectionMetadata error.display) = .ok config.lexicalFields := by
    rw [except_mapM_ok, List.forall₂_map_left_iff, List.forall₂_same]
    intro path _
    rw [FieldPath.new_segments]
    rfl
  have hingestion : (config.ingestion.map PersistedIngestionConfig.ofConfig).mapM
      PersistedIngestionConfig.intoDomain = .ok config.ingestion := by
    cases hsome : config.ingestion with
    | none => rfl
    | some ingestion =>
      rw [Option.map_some, Option.mapM_some,
        PersistedIngestionConfig.intoDomain_ofConfig (h.checked ingestion hsome)]
      rfl
  obtain ⟨fresh, hnew⟩ : ∃ fresh, CollectionConfig.new config.id config.dimension
      config.distanceMetric = .ok fresh := ⟨_, dif_pos config.dimension_pos⟩
  obtain rfl := h.id_eq
  have hversion : 1 ≤ (ofConfig config).version ∧ (ofConfig config).version ≤ 6 :=
    ⟨Nat.le_add_left 1 5, Nat.le_refl 6⟩
  rw [intoDomain, if_neg (not_not.mpr hversion)]
  show ((CollectionId.new config.id.asStr).mapError invalidMetadata >>= _) = _
  rw [CollectionId.new_asStr]
  show ((config.lexicalFields.map FieldPath.segments).mapM (fun segments =>
    (FieldPath.new segments).mapError fun error =>
      MetadataError.invalidCollectionMetadata error.display) >>= _) = _
  rw [hfields, except_ok_bind]
  show ((config.ingestion.map PersistedIngestionConfig.ofConfig).mapM
    PersistedIngestionConfig.intoDomain >>= _) = _
  rw [hingestion, except_ok_bind]
  show ((CollectionConfig.new config.id config.dimension config.distanceMetric).mapError _ >>= _) = _
  rw [hnew]
  show (match config.ingestion with
    | some ingestion => Except.ok (((fresh.withLexicalFields config.lexicalFields).withLexicalAnalyzer
        config.lexicalAnalyzer).withIngestion ingestion)
    | none => Except.ok ((fresh.withLexicalFields config.lexicalFields).withLexicalAnalyzer
        config.lexicalAnalyzer)) = _
  rw [h.rebuilt hnew]
  cases hsome : config.ingestion with
  | none =>
    exact congrArg (fun ingestion => Except.ok { config with ingestion := ingestion }) hsome.symm
  | some ingestion =>
    show Except.ok (config.withIngestion ingestion) = _
    rw [CollectionConfig.withIngestion_of_mem (h.indexed ingestion hsome)]
    exact congrArg (fun ingestion => Except.ok { config with ingestion := ingestion }) hsome.symm

/-! ### Writing the file -/

section Persisting

variable (config : CollectionConfig)

/-- Creates the temporary file, writes it, syncs it, renames it and syncs the directory. -/
def persistCollectionConfig : Program (Volume PersistedCollection) WriteError Unit := do
  let volume ← get
  if volume.temporary.isSome then throw (.io "collection.json.tmp exists")
  else do
    durable (.io "collection.json.tmp was not created") fun volume =>
      { volume with temporary := some none }
    durable (.io "collection.json.tmp was not written") fun volume =>
      { volume with temporary := some (some (.ofConfig config)) }
    attempt (.io "collection.json.tmp was not synced")
    durable (.io "collection.json was not replaced") fun volume =>
      ⟨volume.temporary.join.or volume.file, none⟩
    attempt (.io "the collection directory was not synced")

inductive PersistStep where
  | createTemporary
  | writeTemporary
  | syncTemporary
  | rename
  | syncDirectory
  deriving DecidableEq

/-- A crash at a step, before or after the step took effect. A file that is partly written
is one whose writing has not taken effect. -/
structure CrashPoint where
  step : PersistStep
  effective : Bool
  deriving DecidableEq

def PersistStep.index : PersistStep → ℕ
  | .createTemporary => 0
  | .writeTemporary => 1
  | .syncTemporary => 2
  | .rename => 3
  | .syncDirectory => 4

namespace CrashPoint

def schedule (point : CrashPoint) : List Fault :=
  List.replicate point.step.index .none ++
    [if point.effective then .crashesAfter else .crashesBefore]

/-- The temporary file exists: it is created and not renamed yet. -/
def leavesTemporary : CrashPoint → Bool
  | ⟨.createTemporary, effective⟩ => effective
  | ⟨.writeTemporary, _⟩ | ⟨.syncTemporary, _⟩ => true
  | ⟨.rename, effective⟩ => !effective
  | ⟨.syncDirectory, _⟩ => false

/-- The file has been replaced. -/
def replaces : CrashPoint → Bool
  | ⟨.rename, effective⟩ => effective
  | ⟨.syncDirectory, _⟩ => true
  | ⟨.createTemporary, _⟩ | ⟨.writeTemporary, _⟩ | ⟨.syncTemporary, _⟩ => false

end CrashPoint

variable {config} {volume : Volume PersistedCollection}

/-- What a crash leaves of a volume without a temporary file. -/
structure Leaves (config : CollectionConfig) (volume : Volume PersistedCollection)
    (point : CrashPoint) (after : Volume PersistedCollection) : Prop where
  file : after.file = if point.replaces then some (.ofConfig config) else volume.file
  temporary : after.temporary.isSome = point.leavesTemporary

theorem persist_crashes (hclean : volume.temporary = none) (point : CrashPoint) :
    ∃ after, (persistCollectionConfig config).run volume point.schedule =
      (.crashed, ⟨after, []⟩) ∧ Leaves config volume point after := by
  obtain ⟨file, temporary⟩ := volume
  cases hclean
  obtain ⟨step, effective⟩ := point
  cases step <;> cases effective <;> exact ⟨_, rfl, rfl, rfl⟩

/-- Every run that crashes does so at one of the points. -/
theorem leaves_of_crashed (hclean : volume.temporary = none) {faults : List Fault}
    {world : World (Volume PersistedCollection)}
    (hcrashed : (persistCollectionConfig config).run volume faults = (.crashed, world)) :
    ∃ point, Leaves config volume point world.state := by
  have hensures : (persistCollectionConfig config).Ensures ⟨fun _ _ => True, fun _ _ => True,
      fun after => ∃ point, Leaves config volume point after⟩ volume := by
    refine ensures_getBind ?_
    rw [hclean]
    refine ensures_bind (ensures_durable ?_ trivial trivial ⟨⟨.createTemporary, false⟩, rfl, ?_⟩
      ⟨⟨.createTemporary, true⟩, rfl, rfl⟩)
    · refine ensures_bind (ensures_durable ?_ trivial trivial ⟨⟨.writeTemporary, false⟩, rfl, rfl⟩
        ⟨⟨.writeTemporary, true⟩, rfl, rfl⟩)
      refine ensures_bind (ensures_attempt ?_ trivial ⟨⟨.syncTemporary, true⟩, rfl, rfl⟩)
      refine ensures_bind (ensures_durable ?_ trivial trivial ⟨⟨.rename, false⟩, rfl, rfl⟩
        ⟨⟨.rename, true⟩, rfl, rfl⟩)
      exact ensures_attempt trivial trivial ⟨⟨.syncDirectory, true⟩, rfl, rfl⟩
    · rw [hclean]
      rfl
  have hpost := hensures faults
  rw [hcrashed] at hpost
  exact hpost

/-- Without faults, persisting succeeds exactly when there is no temporary file. -/
theorem persist_returns (hclean : volume.temporary = none) :
    (persistCollectionConfig config).Returns volume () ⟨some (.ofConfig config), none⟩ := by
  obtain ⟨file, temporary⟩ := volume
  cases hclean
  rfl

theorem persist_stuck (hleft : volume.temporary.isSome) (faults : List Fault) :
    (persistCollectionConfig config).run volume faults =
      (.error (.io "collection.json.tmp exists"), ⟨volume, faults⟩) := by
  show Program.run (ite _ (throw _) _) volume faults = _
  rw [if_pos hleft]
  rfl

end Persisting

/-! ### Creating a collection and updating its schema -/

inductive SchemaError where
  | write (error : WriteError)
  | collectionAlreadyExists (collectionId : CollectionId)

/-- What `create_collection` gets. The ingestion schema is one its constructors have built. -/
structure CollectionCreateSpec where
  dimension : ℕ
  metric : DistanceMetric
  lexicalFields : List FieldPath
  analyzer : LexicalAnalyzerConfig
  ingestion : Option CollectionIngestionConfig
  built : ∀ schema ∈ ingestion, schema.Checked

inductive SchemaCall where
  | createCollection (spec : CollectionCreateSpec)
  | updateLexicalSchema (lexicalFields : List FieldPath) (analyzer : LexicalAnalyzerConfig)

/-- The files of a collection and its configuration in the catalog, if it is there. -/
structure ManagedCollection where
  volume : Volume PersistedCollection
  config : Option CollectionConfig

section Calls

variable {F : Type} (state : AppState F) (registry : EmbeddingProviderRegistry)

def checkProvider (spec : CollectionCreateSpec) : Except WriteError Unit :=
  match spec.ingestion with
  | none => pure ()
  | some ingestion => do
    let provider ← WriteService.registeredProvider registry ingestion.embeddingProfile
    WriteService.checkFixedDimension ingestion.embeddingProfile provider spec.dimension

def createdConfig (spec : CollectionCreateSpec) : Except WriteError CollectionConfig := do
  checkProvider registry spec
  let config ← (CollectionConfig.new state.collectionId spec.dimension spec.metric).mapError
    fun error => WriteError.validation error.display
  let updated := (config.withLexicalFields spec.lexicalFields).withLexicalAnalyzer spec.analyzer
  match spec.ingestion with
  | some ingestion => pure (updated.withIngestion ingestion)
  | none => pure updated

/-- The validation of a call: the configuration it is about to write. -/
def SchemaCall.plan (call : SchemaCall) (current : Option CollectionConfig) :
    Except SchemaError CollectionConfig :=
  match call with
  | .createCollection spec => do
    let config ← (createdConfig state registry spec).mapError .write
    if current.isSome then throw (.collectionAlreadyExists state.collectionId) else pure config
  | .updateLexicalSchema lexicalFields analyzer =>
      match current with
      | none => .error (.write (.collectionNotFound state.collectionId))
      | some existing =>
          (WriteService.updatedConfig state existing lexicalFields analyzer).mapError .write

def writeMetadata (config : CollectionConfig) : Program ManagedCollection SchemaError Unit :=
  ((persistCollectionConfig config).mapError SchemaError.write).onPart ManagedCollection.volume
    fun volume server => { server with volume := volume }

/-- Only a new collection opens its log. -/
def SchemaCall.openLog : SchemaCall → Program ManagedCollection SchemaError Unit
  | .createCollection _ => attempt (.write (.artifact (.wal .io)))
  | .updateLexicalSchema _ _ => pure ()

def SchemaCall.perform (call : SchemaCall) :
    Program ManagedCollection SchemaError CollectionConfig := do
  let server ← get
  let config ← lift (call.plan state registry server.config)
  attempt (.write (.scope .namespace))
  writeMetadata config
  call.openLog
  modify fun server => { server with config := some config }
  pure config

/-- A server that starts has the collection in its catalog if the metadata file is there. -/
def ManagedCollection.recover (volume : Volume PersistedCollection) :
    Except MetadataError ManagedCollection :=
  match volume.file with
  | none => .ok ⟨volume, none⟩
  | some collection => do
    let config ← collection.intoDomain
    pure ⟨volume, some config⟩

inductive LaterEvent where
  | call (call : SchemaCall)
  | restart

/-- The collection after an event without faults. -/
def ManagedCollection.after (server : ManagedCollection) : LaterEvent → ManagedCollection
  | .call call => ((call.perform state registry).run server []).2.state
  | .restart => (ManagedCollection.recover server.volume).toOption.getD server

/-- Whatever happens later, each call that passes its validation succeeds. -/
def Retryable (server : ManagedCollection) : Prop :=
  ∀ (events : List LaterEvent) (call : SchemaCall) (config : CollectionConfig),
    call.plan state registry (events.foldl (·.after state registry) server).config = .ok config →
      ∃ next, (call.perform state registry).Returns (events.foldl (·.after state registry) server)
        config next

/-- The file holds the configuration, and nothing is left behind. -/
structure ManagedCollection.Sound (server : ManagedCollection) : Prop where
  clean : server.volume.temporary = none
  file : server.volume.file = server.config.map .ofConfig
  canonical : ∀ config ∈ server.config, config.Canonical state.collectionId

variable {state registry} {server : ManagedCollection} {call : SchemaCall}
  {config : CollectionConfig}

theorem canonical_of_new {dimension : ℕ} {metric : DistanceMetric} {fields : List FieldPath}
    {analyzer : LexicalAnalyzerConfig}
    (h : CollectionConfig.new state.collectionId dimension metric = .ok config) :
    ((config.withLexicalFields fields).withLexicalAnalyzer analyzer).Canonical
      state.collectionId :=
  (((CollectionConfig.Built.new h).withLexicalFields fields).withLexicalAnalyzer
    analyzer).canonical

theorem CollectionConfig.Canonical.withIngestion {id : CollectionId} (h : config.Canonical id)
    {ingestion : CollectionIngestionConfig} (hbuilt : ingestion.Checked) :
    (config.withIngestion ingestion).Canonical id := by
  refine CollectionConfig.canonical_ensure h.id_eq h.sorted fun other hother => ?_
  cases hother
  exact hbuilt

theorem canonical_of_createdConfig {spec : CollectionCreateSpec}
    (h : createdConfig state registry spec = .ok config) :
    config.Canonical state.collectionId := by
  obtain ⟨⟨⟩, -, h⟩ := except_bind_ok.mp h
  obtain ⟨fresh, hfresh, h⟩ := except_bind_ok.mp h
  have hnew := mapError_ok_iff.mp hfresh
  cases hingestion : spec.ingestion with
  | none =>
    rw [hingestion] at h
    cases h
    exact canonical_of_new hnew
  | some ingestion =>
    rw [hingestion] at h
    cases h
    exact (canonical_of_new hnew).withIngestion (spec.built ingestion hingestion)

theorem canonical_of_updatedConfig {existing : CollectionConfig} {fields : List FieldPath}
    {analyzer : LexicalAnalyzerConfig} (hexisting : existing.Canonical state.collectionId)
    (h : WriteService.updatedConfig state existing fields analyzer = .ok config) :
    config.Canonical state.collectionId := by
  obtain ⟨fresh, hfresh, h⟩ := except_bind_ok.mp h
  have hnew := mapError_ok_iff.mp hfresh
  cases hingestion : existing.ingestion with
  | none =>
    rw [hingestion] at h
    cases h
    exact canonical_of_new hnew
  | some ingestion =>
    rw [hingestion] at h
    cases h
    exact (canonical_of_new hnew).withIngestion (hexisting.checked ingestion hingestion)

theorem canonical_of_plan {current : Option CollectionConfig}
    (hcurrent : ∀ config ∈ current, config.Canonical state.collectionId)
    (hplan : call.plan state registry current = .ok config) :
    config.Canonical state.collectionId := by
  cases call with
  | createCollection spec =>
    obtain ⟨created, hcreated, hplan⟩ := except_bind_ok.mp hplan
    split at hplan
    · cases hplan
    · cases hplan
      exact canonical_of_createdConfig (mapError_ok_iff.mp hcreated)
  | updateLexicalSchema fields analyzer =>
    cases hexisting : current with
    | none =>
      rw [hexisting] at hplan
      cases hplan
    | some existing =>
      rw [hexisting] at hplan
      exact canonical_of_updatedConfig (hcurrent existing hexisting) (mapError_ok_iff.mp hplan)

theorem perform_returns (hclean : server.volume.temporary = none)
    (hplan : call.plan state registry server.config = .ok config) :
    (call.perform state registry).Returns server config
      ⟨⟨some (.ofConfig config), none⟩, some config⟩ := by
  refine returns_getBind (returns_bind (returns_lift hplan) (returns_bind rfl ?_))
  refine returns_bind (returns_onPart (returns_mapError (persist_returns hclean))) ?_
  cases call with
  | createCollection spec => rfl
  | updateLexicalSchema fields analyzer => rfl

theorem perform_refused {error : SchemaError}
    (hplan : call.plan state registry server.config = .error error) :
    (call.perform state registry).run server [] = (.error error, ⟨server, []⟩) := by
  show Program.run (lift (call.plan state registry server.config) >>= _) server [] = _
  rw [hplan]
  rfl

theorem writeMetadata_stuck (hleft : server.volume.temporary.isSome) :
    (writeMetadata config).run server [] =
      (.error (.write (.io "collection.json.tmp exists")), ⟨server, []⟩) := by
  have hstuck := @persist_stuck config server.volume hleft []
  unfold writeMetadata run onPart mapError handle at *
  rw [hstuck]
  rfl

/-- A call that finds a temporary file does not succeed. -/
theorem not_returns_of_left (hleft : server.volume.temporary.isSome) {next : ManagedCollection} :
    ¬(call.perform state registry).Returns server config next := by
  intro h
  obtain ⟨planned, -, h⟩ := ok_of_liftBind (h : Program.run (lift _ >>= _) server [] = _)
  have hwrite : continueWith _ ((writeMetadata planned).run server []) =
      (.ok config, ⟨next, []⟩) := h
  rw [writeMetadata_stuck hleft] at hwrite
  cases hwrite

/-- What is in the file is in the catalog after a restart. -/
theorem recover_written {volume : Volume PersistedCollection} {loaded : Option CollectionConfig}
    (hfile : volume.file = loaded.map .ofConfig)
    (hcanonical : ∀ config ∈ loaded, config.Canonical state.collectionId) :
    ManagedCollection.recover volume = .ok ⟨volume, loaded⟩ := by
  unfold ManagedCollection.recover
  rw [hfile]
  cases loaded with
  | none => rfl
  | some config =>
    show (PersistedCollection.ofConfig config).intoDomain >>= _ = _
    rw [PersistedCollection.intoDomain_ofConfig (hcanonical config rfl)]
    rfl

namespace ManagedCollection.Sound

theorem recover (h : server.Sound state) {volume : Volume PersistedCollection}
    (hfile : volume.file = server.volume.file) :
    ManagedCollection.recover volume = .ok ⟨volume, server.config⟩ :=
  recover_written (hfile.trans h.file) h.canonical

theorem after (h : server.Sound state) (event : LaterEvent) :
    (server.after state registry event).Sound state := by
  cases event with
  | call call =>
    show ((call.perform state registry).run server []).2.state.Sound state
    cases hplan : call.plan state registry server.config with
    | error error =>
      rw [perform_refused hplan]
      exact h
    | ok config =>
      have hreturns := perform_returns h.clean hplan
      unfold Returns at hreturns
      rw [hreturns]
      refine ⟨rfl, rfl, fun other hother => ?_⟩
      cases hother
      exact canonical_of_plan h.canonical hplan
  | restart =>
    show ((ManagedCollection.recover server.volume).toOption.getD server).Sound state
    rw [h.recover rfl]
    exact h

theorem foldl (h : server.Sound state) (events : List LaterEvent) :
    (events.foldl (·.after state registry) server).Sound state := by
  induction events generalizing server with
  | nil => exact h
  | cons event rest ih => exact ih (h.after event)

theorem retryable (h : server.Sound state) : Retryable state registry server :=
  fun events _ _ hplan => ⟨_, perform_returns (h.foldl events).clean hplan⟩

end ManagedCollection.Sound

/-- Some call always passes its validation: the one that crashed or an update. -/
theorem exists_plan {current recovered : Option CollectionConfig}
    (hplan : call.plan state registry current = .ok config)
    (hrecovered : recovered = current ∨ recovered = some config) :
    ∃ later planned, SchemaCall.plan state registry later recovered = .ok planned := by
  cases recovered with
  | none =>
    rcases hrecovered with rfl | hnone
    · exact ⟨call, config, hplan⟩
    · cases hnone
  | some existing =>
    have hnew : CollectionConfig.new state.collectionId existing.dimension existing.distanceMetric =
        .ok _ := dif_pos existing.dimension_pos
    refine ⟨.updateLexicalSchema [] .default, ?_⟩
    show ∃ planned, (WriteService.updatedConfig state existing [] .default).mapError _ = .ok planned
    unfold WriteService.updatedConfig
    rw [hnew]
    cases existing.ingestion with
    | none => exact ⟨_, rfl⟩
    | some ingestion => exact ⟨_, rfl⟩

/-- After a crash at any point the old or the new configuration is loaded, and every later
call that passes its validation succeeds, exactly when no temporary file is left. -/
theorem retryable_after_crash_iff (hsound : server.Sound state)
    (hplan : call.plan state registry server.config = .ok config) (point : CrashPoint) :
    (∃ recovered, ManagedCollection.recover
          ((persistCollectionConfig config).run server.volume point.schedule).2.state =
        .ok recovered ∧ (recovered.config = server.config ∨ recovered.config = some config) ∧
        Retryable state registry recovered) ↔ point.leavesTemporary = false := by
  obtain ⟨volume, hcrashed, hleaves⟩ := @persist_crashes config _ hsound.clean point
  rw [hcrashed]
  obtain ⟨loaded, hloaded, hfile, hcanonical⟩ : ∃ loaded,
      (loaded = server.config ∨ loaded = some config) ∧
        volume.file = loaded.map PersistedCollection.ofConfig ∧
        ∀ config ∈ loaded, config.Canonical state.collectionId := by
    have hfile := hleaves.file
    split at hfile
    · refine ⟨some config, .inr rfl, hfile, fun other hother => ?_⟩
      cases hother
      exact canonical_of_plan hsound.canonical hplan
    · exact ⟨server.config, .inl rfl, hfile.trans hsound.file, hsound.canonical⟩
  rw [recover_written hfile hcanonical]
  constructor
  · rintro ⟨recovered, heq, -, hretryable⟩
    cases heq
    obtain ⟨later, planned, hlater⟩ := exists_plan hplan hloaded
    obtain ⟨next, hreturns⟩ := hretryable [] later planned hlater
    rw [← hleaves.temporary, Bool.eq_false_iff]
    exact fun hleft => not_returns_of_left hleft hreturns
  · intro hnone
    have hclean : volume.temporary = none := by
      rw [← hleaves.temporary, Option.isSome_eq_false_iff, Option.isNone_iff_eq_none] at hnone
      exact hnone
    have hrecovered : ManagedCollection.Sound state ⟨volume, loaded⟩ :=
      ⟨hclean, hfile, hcanonical⟩
    exact ⟨_, rfl, hloaded, hrecovered.retryable⟩

end Calls

/-! ### An update that crashes -/

section Sample

def sampleMetadata : ManagedCollection :=
  ⟨⟨some (.ofConfig (movedConfig none)), none⟩, some (movedConfig none)⟩

theorem sound_sampleMetadata : sampleMetadata.Sound movedCollection := by
  refine ⟨rfl, rfl, fun config hconfig => ?_⟩
  cases hconfig
  exact (built_movedConfig none).canonical

def titleUpdate : SchemaCall := .updateLexicalSchema [⟨"title", [], FieldPath.nonempty_title⟩] .default

theorem plan_titleUpdate : ∃ config,
    titleUpdate.plan movedCollection sampleRegistry sampleMetadata.config = .ok config :=
  ⟨_, rfl⟩

/-- A crash right after the renaming is harmless. -/
theorem retryable_after_rename : ∃ config recovered,
    titleUpdate.plan movedCollection sampleRegistry sampleMetadata.config = .ok config ∧
    ManagedCollection.recover ((persistCollectionConfig config).run sampleMetadata.volume
      (CrashPoint.schedule ⟨.rename, true⟩)).2.state = .ok recovered ∧
    (recovered.config = sampleMetadata.config ∨ recovered.config = some config) ∧
    Retryable movedCollection sampleRegistry recovered := by
  obtain ⟨config, hplan⟩ := plan_titleUpdate
  obtain ⟨recovered, hrecovered⟩ :=
    (retryable_after_crash_iff sound_sampleMetadata hplan ⟨.rename, true⟩).mpr rfl
  exact ⟨config, recovered, hplan, hrecovered⟩

/-- A crash right after the temporary file is created blocks every later update. -/
theorem not_retryable_after_create : ∃ config recovered,
    titleUpdate.plan movedCollection sampleRegistry sampleMetadata.config = .ok config ∧
    ManagedCollection.recover ((persistCollectionConfig config).run sampleMetadata.volume
      (CrashPoint.schedule ⟨.createTemporary, true⟩)).2.state = .ok recovered ∧
    ¬Retryable movedCollection sampleRegistry recovered := by
  obtain ⟨config, hplan⟩ := plan_titleUpdate
  refine ⟨config, ⟨⟨sampleMetadata.volume.file, some none⟩, some (movedConfig none)⟩, hplan,
    sound_sampleMetadata.recover rfl, fun hretryable => ?_⟩
  obtain ⟨next, hreturns⟩ := hretryable [] titleUpdate config hplan
  exact not_returns_of_left rfl hreturns

end Sample

end Ketebe
