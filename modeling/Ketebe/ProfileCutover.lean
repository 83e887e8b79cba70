import Ketebe.LexicalWriters

/-!
Moving a collection to another embedding profile. The vectors of the new profile
are published first; the cutover then rebuilds the configuration around a
character-chunked ingestion schema, whatever schema the collection has.
-/
namespace Ketebe

open Lib.ByteCodec Lib.Durable Lib.Durable.Program Lib.SortedSet

/-! ### Configurations -/

namespace CollectionIngestionConfig

def withProfile (config : CollectionIngestionConfig) (profile : String) :
    CollectionIngestionConfig :=
  { config with embeddingProfile := profile }

theorem build_ok_iff {profile : String} {chunking : Option ChunkingPolicy}
    {tokenChunking : Option TokenChunkingPolicy} {semanticChunking : Option SemanticChunkingPolicy}
    {indexChunkText : Bool} {config : CollectionIngestionConfig} :
    build profile chunking tokenChunking semanticChunking indexChunkText = .ok config ↔
      trim profile ≠ "" ∧ trim profile = profile ∧
      configuredModes chunking tokenChunking semanticChunking ≤ 1 ∧
      (indexChunkText → configuredModes chunking tokenChunking semanticChunking ≠ 0) ∧
      config = ⟨profile, chunking, tokenChunking, semanticChunking, indexChunkText⟩ := by
  unfold build
  by_cases hblank : trim profile = ""
  · rw [if_pos hblank]
    exact ⟨nofun, fun h => absurd hblank h.1⟩
  rw [if_neg hblank]
  by_cases htrim : trim profile = profile
  swap
  · rw [if_pos htrim]
    exact ⟨nofun, fun h => absurd h.2.1 htrim⟩
  rw [if_neg (not_not.mpr htrim)]
  by_cases hmodes : 1 < configuredModes chunking tokenChunking semanticChunking
  · rw [if_pos hmodes]
    exact ⟨nofun, fun h => absurd h.2.2.1 (Nat.not_le.mpr hmodes)⟩
  rw [if_neg hmodes]
  by_cases hindex :
      (indexChunkText && configuredModes chunking tokenChunking semanticChunking == 0) = true
  · rw [if_pos hindex]
    obtain ⟨htext, hnone⟩ := Bool.and_eq_true_iff.mp hindex
    exact ⟨nofun, fun h => absurd (eq_of_beq hnone) (h.2.2.2.1 htext)⟩
  · rw [if_neg hindex]
    constructor
    · intro h
      cases h
      refine ⟨hblank, htrim, Nat.not_lt.mp hmodes, fun htext hnone => hindex ?_, rfl⟩
      rw [htext, hnone]
      rfl
    · rintro ⟨-, -, -, -, rfl⟩
      rfl

/-- The schema passes the checks of its constructors. -/
def Checked (config : CollectionIngestionConfig) : Prop :=
  build config.embeddingProfile config.chunking config.tokenChunking config.semanticChunking
    config.indexChunkText = .ok config

end CollectionIngestionConfig

namespace CollectionConfig

/-- The configurations of a collection that the constructors give. -/
inductive Built (id : CollectionId) : CollectionConfig → Prop where
  | new {dimension : ℕ} {distanceMetric : DistanceMetric} {config : CollectionConfig}
      (h : CollectionConfig.new id dimension distanceMetric = .ok config) : Built id config
  | withLexicalFields {config : CollectionConfig} (h : Built id config) (fields : List FieldPath) :
      Built id (config.withLexicalFields fields)
  | withLexicalAnalyzer {config : CollectionConfig} (h : Built id config)
      (analyzer : LexicalAnalyzerConfig) : Built id (config.withLexicalAnalyzer analyzer)
  | withIngestion {config : CollectionConfig} (h : Built id config) {profile : String}
      {chunking : Option ChunkingPolicy} {tokenChunking : Option TokenChunkingPolicy}
      {semanticChunking : Option SemanticChunkingPolicy} {indexChunkText : Bool}
      {ingestion : CollectionIngestionConfig} (hingestion : CollectionIngestionConfig.build profile
        chunking tokenChunking semanticChunking indexChunkText = .ok ingestion) :
      Built id (config.withIngestion ingestion)

def withProfile (config : CollectionConfig) (profile : String) : CollectionConfig :=
  { config with ingestion := config.ingestion.map fun ingestion => ingestion.withProfile profile }

/-- What the constructors ensure. -/
structure Canonical (id : CollectionId) (config : CollectionConfig) : Prop where
  id_eq : config.id = id
  sorted : config.lexicalFields.Pairwise (· < ·)
  indexed : ∀ ingestion ∈ config.ingestion, ingestion.indexChunkText →
    chunkTextField ∈ config.lexicalFields
  checked : ∀ ingestion ∈ config.ingestion, ingestion.Checked

section Canonical

variable {id : CollectionId} {config : CollectionConfig}

theorem ensureIngestionLexicalField_of_mem
    (h : ∀ ingestion ∈ config.ingestion, ingestion.indexChunkText →
      chunkTextField ∈ config.lexicalFields) : config.ensureIngestionLexicalField = config := by
  unfold ensureIngestionLexicalField
  cases hingestion : config.ingestion with
  | none => rfl
  | some ingestion =>
    refine if_neg fun hmissing => ?_
    obtain ⟨htext, habsent⟩ := Bool.and_eq_true_iff.mp hmissing
    have hmem : chunkTextField ∈ config.lexicalFields := h ingestion hingestion htext
    rw [List.contains_iff_mem.mpr hmem] at habsent
    cases habsent

theorem canonical_ensure (hid : config.id = id) (hsorted : config.lexicalFields.Pairwise (· < ·))
    (hchecked : ∀ ingestion ∈ config.ingestion, ingestion.Checked) :
    Canonical id config.ensureIngestionLexicalField := by
  by_cases hmem : ∀ ingestion ∈ config.ingestion, ingestion.indexChunkText →
      chunkTextField ∈ config.lexicalFields
  · rw [ensureIngestionLexicalField_of_mem hmem]
    exact ⟨hid, hsorted, hmem, hchecked⟩
  · push Not at hmem
    obtain ⟨ingestion, hingestion, htext, habsent⟩ := hmem
    have hmissing : (ingestion.indexChunkText && !config.lexicalFields.contains chunkTextField) =
        true := by
      rw [htext, Bool.true_and, Bool.not_eq_true', Bool.eq_false_iff]
      exact fun hcontains => habsent (List.contains_iff_mem.mp hcontains)
    have hadded : config.ensureIngestionLexicalField =
        { config with lexicalFields := sortDedup (config.lexicalFields ++ [chunkTextField]) } := by
      unfold ensureIngestionLexicalField
      rw [Option.mem_def.mp hingestion]
      exact if_pos hmissing
    rw [hadded]
    refine ⟨hid, pairwise_sortDedup _, fun _ _ _ => ?_, hchecked⟩
    exact mem_sortDedup.mpr (List.mem_append_right _ (List.mem_singleton_self _))

theorem Built.canonical (h : Built id config) : Canonical id config := by
  induction h with
  | new h =>
    unfold CollectionConfig.new at h
    split at h
    · cases h
      exact ⟨rfl, List.Pairwise.nil, fun _ h => (by cases h), fun _ h => (by cases h)⟩
    · cases h
  | withLexicalFields _ fields ih =>
    exact canonical_ensure ih.id_eq (pairwise_sortDedup fields) ih.checked
  | withLexicalAnalyzer _ analyzer ih => exact ⟨ih.id_eq, ih.sorted, ih.indexed, ih.checked⟩
  | withIngestion _ hingestion ih =>
    refine canonical_ensure ih.id_eq ih.sorted fun ingestion hsome => ?_
    cases hsome
    obtain ⟨-, -, -, -, rfl⟩ := CollectionIngestionConfig.build_ok_iff.mp hingestion
    exact hingestion

/-- Built again from its dimension, metric and lexical schema, a configuration lacks its
ingestion schema only. -/
theorem Canonical.rebuilt (h : Canonical id config) {fresh : CollectionConfig}
    (hnew : CollectionConfig.new id config.dimension config.distanceMetric = .ok fresh) :
    (fresh.withLexicalFields config.lexicalFields).withLexicalAnalyzer config.lexicalAnalyzer =
      { config with ingestion := none } := by
  have hsorted : sortDedup config.lexicalFields = config.lexicalFields :=
    eq_of_pairwise_of_mem (pairwise_sortDedup _) h.sorted fun _ => mem_sortDedup
  rw [CollectionConfig.new, dif_pos config.dimension_pos] at hnew
  cases hnew
  rw [withLexicalFields, hsorted, ensureIngestionLexicalField_of_mem, withLexicalAnalyzer]
  · rw [← h.id_eq]
  · exact nofun

theorem withIngestion_of_mem {ingestion : CollectionIngestionConfig}
    (h : ingestion.indexChunkText → chunkTextField ∈ config.lexicalFields) :
    config.withIngestion ingestion = { config with ingestion := some ingestion } := by
  rw [withIngestion, ensureIngestionLexicalField_of_mem]
  intro other hother htext
  cases hother
  exact h htext

end Canonical

end CollectionConfig

/-! ### Providers -/

/-- The part of a provider that a cutover reads. -/
structure EmbeddingProvider where
  fixedDimension : Option ℕ

inductive EmbeddingError where
  | invalidProvider (message : String)

/-- The registered providers, none of them under a blank name. -/
structure EmbeddingProviderRegistry where
  providers : Std.ExtTreeMap String EmbeddingProvider compare
  named : ∀ profile ∈ providers, trim profile ≠ ""

namespace EmbeddingProviderRegistry

def new : EmbeddingProviderRegistry := ⟨∅, fun _ h => absurd h Std.ExtTreeMap.not_mem_empty⟩

def register (registry : EmbeddingProviderRegistry) (profile : String)
    (provider : EmbeddingProvider) : Except EmbeddingError EmbeddingProviderRegistry :=
  if hblank : trim profile = "" then
    .error (.invalidProvider "provider profile name must not be empty")
  else if profile ∈ registry.providers then
    .error (.invalidProvider s!"provider profile '{profile}' is already registered")
  else .ok ⟨registry.providers.insert profile provider, fun other hother => by
    rcases Std.ExtTreeMap.mem_insert.mp hother with hsame | hmem
    · rw [← Std.LawfulEqCmp.eq_of_compare hsame]
      exact hblank
    · exact registry.named other hmem⟩

def resolve (registry : EmbeddingProviderRegistry) (profile : String) : Option EmbeddingProvider :=
  registry.providers[profile]?

end EmbeddingProviderRegistry

/-! ### The cutover -/

namespace WriteService

variable {F : Type} (state : AppState F) (registry : EmbeddingProviderRegistry)
  (expectedActiveProfile targetProfile : String)

def registeredProvider : Except WriteError EmbeddingProvider :=
  match registry.resolve targetProfile with
  | some provider => .ok provider
  | none => .error (.validation s!"embedding profile '{targetProfile}' is not registered")

def managedIngestion (existing : CollectionConfig) : Except WriteError CollectionIngestionConfig :=
  match existing.ingestion with
  | some ingestion => .ok ingestion
  | none => .error (.validation "collection does not have a managed ingestion schema")

def checkActiveProfile (ingestion : CollectionIngestionConfig) : Except WriteError Unit :=
  if ingestion.embeddingProfile ≠ expectedActiveProfile then
    .error (.validation (s!"active embedding profile changed from '{expectedActiveProfile}' " ++
      s!"to '{ingestion.embeddingProfile}'"))
  else .ok ()

def checkFixedDimension (provider : EmbeddingProvider) (expected : ℕ) : Except WriteError Unit :=
  match provider.fixedDimension with
  | none => .ok ()
  | some dimension =>
      if dimension ≠ expected then
        .error (.validation (s!"embedding profile '{targetProfile}' dimension {dimension} " ++
          s!"does not match collection dimension {expected}"))
      else .ok ()

def publishEmbeddingMigrationVectors (S : Type) [ScoreArith S] (records : List PendingRecord) :
    Program (Store F) WriteError (List SequenceNumber) := do
  if records = [] then throw (.validation "embedding migration contains no managed records")
  else do
    let provider ← lift (registeredProvider registry targetProfile)
    let runtime ← currentRuntime state
    match runtime.config with
    | none => throw .collectionNotWritable
    | some existing => do
      let ingestion ← lift (managedIngestion existing)
      lift (checkActiveProfile expectedActiveProfile ingestion)
      lift (checkFixedDimension targetProfile provider existing.dimension)
      let batch ← lift (prepareBatch state existing records)
      write state S runtime batch

/-- The configuration of the cutover. Only a character policy is handed on. -/
def cutoverConfig (existing : CollectionConfig) (ingestion : CollectionIngestionConfig) :
    Except WriteError CollectionConfig := do
  let updatedIngestion ← (CollectionIngestionConfig.new targetProfile ingestion.chunking
    ingestion.indexChunkText).mapError fun error => WriteError.validation error.display
  let config ← (CollectionConfig.new state.collectionId existing.dimension
    existing.distanceMetric).mapError fun error => WriteError.validation error.display
  pure (((config.withLexicalFields existing.lexicalFields).withLexicalAnalyzer
    existing.lexicalAnalyzer).withIngestion updatedIngestion)

def finalizeEmbeddingProfileCutover : Program (Store F) WriteError CollectionConfig := do
  let provider ← lift (registeredProvider registry targetProfile)
  let runtime ← currentRuntime state
  match runtime.config with
  | none => throw .collectionNotWritable
  | some existing => do
    let ingestion ← lift (managedIngestion existing)
    if ingestion.embeddingProfile = targetProfile then pure existing
    else do
      lift (checkActiveProfile expectedActiveProfile ingestion)
      lift (checkFixedDimension targetProfile provider existing.dimension)
      let updated ← lift (cutoverConfig state targetProfile existing ingestion)
      durable (.io "collection configuration was not persisted")
        (Store.updateDir fun dir => { dir with config := updated })
      updateRuntime fun runtime => { runtime with config := some updated }
      pure updated

end WriteService

/-! ### What the cutover changes -/

section Cutover

open WriteService CollectionConfig

variable {F : Type} {state : AppState F} {registry : EmbeddingProviderRegistry}
  {expectedActiveProfile targetProfile : String} {existing : CollectionConfig}
  {ingestion : CollectionIngestionConfig}

/-- The collection is running with this configuration. -/
def Configured (config : CollectionConfig) (store : Store F) : Prop :=
  ∃ runtime, store.runtime = some runtime ∧ runtime.config = some config

theorem build_cutover_iff (hnamed : trim targetProfile ≠ "")
    (hchecked : ingestion.Checked) :
    CollectionIngestionConfig.new targetProfile ingestion.chunking ingestion.indexChunkText =
        .ok (ingestion.withProfile targetProfile) ↔
      ingestion.tokenChunking = none ∧ ingestion.semanticChunking = none ∧
        trim targetProfile = targetProfile := by
  obtain ⟨-, -, -, hindex, -⟩ := CollectionIngestionConfig.build_ok_iff.mp hchecked
  rw [CollectionIngestionConfig.new, CollectionIngestionConfig.build_ok_iff]
  constructor
  · rintro ⟨-, htrim, -, -, heq⟩
    exact ⟨congrArg CollectionIngestionConfig.tokenChunking heq,
      congrArg CollectionIngestionConfig.semanticChunking heq, htrim⟩
  · rintro ⟨htoken, hsemantic, htrim⟩
    rw [htoken, hsemantic] at hindex
    refine ⟨hnamed, htrim, ?_, hindex, ?_⟩
    · cases ingestion.chunking with
      | none => exact Nat.zero_le 1
      | some _ => exact Nat.le_refl 1
    · rw [CollectionIngestionConfig.withProfile, htoken, hsemantic]

theorem cutoverConfig_eq (hcanonical : Canonical state.collectionId existing)
    (hingestion : existing.ingestion = some ingestion) {updated : CollectionIngestionConfig}
    (hupdated : CollectionIngestionConfig.new targetProfile ingestion.chunking
      ingestion.indexChunkText = .ok updated) :
    cutoverConfig state targetProfile existing ingestion =
      .ok { existing with ingestion := some updated } := by
  obtain ⟨-, -, -, -, hfields⟩ := CollectionIngestionConfig.build_ok_iff.mp hupdated
  obtain ⟨fresh, hnew⟩ : ∃ fresh, CollectionConfig.new state.collectionId existing.dimension
      existing.distanceMetric = .ok fresh := ⟨_, dif_pos existing.dimension_pos⟩
  have hindexed : updated.indexChunkText → chunkTextField ∈ existing.lexicalFields := by
    rw [hfields]
    exact hcanonical.indexed ingestion hingestion
  unfold cutoverConfig
  rw [hupdated, hnew]
  show Except.ok _ = _
  rw [hcanonical.rebuilt hnew]
  exact congrArg Except.ok (withIngestion_of_mem hindexed)

/-- The new configuration differs in its profile only if none but a character policy is set. -/
theorem cutoverConfig_iff (hcanonical : Canonical state.collectionId existing)
    (hingestion : existing.ingestion = some ingestion) (hnamed : trim targetProfile ≠ "") :
    cutoverConfig state targetProfile existing ingestion =
        .ok (existing.withProfile targetProfile) ↔
      ingestion.tokenChunking = none ∧ ingestion.semanticChunking = none ∧
        trim targetProfile = targetProfile := by
  rw [← build_cutover_iff hnamed (hcanonical.checked ingestion hingestion)]
  have hexpected : existing.withProfile targetProfile =
      { existing with ingestion := some (ingestion.withProfile targetProfile) } := by
    rw [CollectionConfig.withProfile, hingestion, Option.map_some]
  rw [hexpected]
  constructor
  · intro h
    obtain ⟨updated, hupdated, -⟩ := except_bind_ok.mp h
    have hnew := mapError_ok_iff.mp hupdated
    rw [cutoverConfig_eq hcanonical hingestion hnew] at h
    cases h
    exact hnew
  · exact cutoverConfig_eq hcanonical hingestion

/-- A target profile that `publishEmbeddingMigrationVectors` has accepted. -/
structure Accepted (registry : EmbeddingProviderRegistry)
    (expectedActiveProfile targetProfile : String) (existing : CollectionConfig)
    (ingestion : CollectionIngestionConfig) (provider : EmbeddingProvider) : Prop where
  registered : registry.resolve targetProfile = some provider
  managed : existing.ingestion = some ingestion
  active : ingestion.embeddingProfile = expectedActiveProfile
  dimension : ∀ dimension ∈ provider.fixedDimension, dimension = existing.dimension

theorem run_currentRuntime {α : Type} {f : CollectionRuntime → Program (Store F) WriteError α}
    {store : Store F} {runtime : CollectionRuntime} {faults : List Fault}
    (h : store.runtime = some runtime) :
    (currentRuntime state >>= f).run store faults = (f runtime).run store faults := by
  have hruntime : (currentRuntime state).run store faults = (.ok runtime, ⟨store, faults⟩) := by
    obtain ⟨dir, found⟩ := store
    obtain rfl : found = some runtime := h
    rfl
  show continueWith f ((currentRuntime state).run store faults) = _
  rw [hruntime]
  rfl

theorem registeredProvider_ok_iff {provider : EmbeddingProvider} :
    registeredProvider registry targetProfile = .ok provider ↔
      registry.resolve targetProfile = some provider := by
  unfold registeredProvider
  cases registry.resolve targetProfile with
  | none => exact ⟨nofun, nofun⟩
  | some found => exact ⟨fun h => by cases h; rfl, fun h => by cases h; rfl⟩

theorem managedIngestion_ok_iff :
    managedIngestion existing = .ok ingestion ↔ existing.ingestion = some ingestion := by
  unfold managedIngestion
  cases existing.ingestion with
  | none => exact ⟨nofun, nofun⟩
  | some found => exact ⟨fun h => by cases h; rfl, fun h => by cases h; rfl⟩

theorem checkActiveProfile_ok_iff :
    checkActiveProfile expectedActiveProfile ingestion = .ok () ↔
      ingestion.embeddingProfile = expectedActiveProfile := by
  unfold checkActiveProfile
  split
  · rename_i hne
    exact ⟨nofun, fun h => absurd h hne⟩
  · rename_i heq
    exact ⟨fun _ => not_not.mp heq, fun _ => rfl⟩

theorem checkFixedDimension_ok_iff {provider : EmbeddingProvider} {expected : ℕ} :
    checkFixedDimension targetProfile provider expected = .ok () ↔
      ∀ dimension ∈ provider.fixedDimension, dimension = expected := by
  unfold checkFixedDimension
  cases provider.fixedDimension with
  | none => exact ⟨fun _ => nofun, fun _ => rfl⟩
  | some dimension =>
    dsimp only
    by_cases hsame : dimension = expected
    · rw [if_neg (not_not.mpr hsame)]
      exact ⟨fun _ other hother => (Option.some.inj hother) ▸ hsame, fun _ => rfl⟩
    · rw [if_pos hsame]
      exact ⟨nofun, fun h => absurd (h dimension rfl) hsame⟩

theorem accepted_of_publish {S : Type} [ScoreArith S] {records : List PendingRecord}
    {start : Store F} {faults : List Fault} {sequences : List SequenceNumber}
    {world : World (Store F)} (hstart : Configured existing start)
    (hpublished : (publishEmbeddingMigrationVectors state registry expectedActiveProfile
      targetProfile S records).run start faults = (.ok sequences, world)) :
    ∃ ingestion provider,
      Accepted registry expectedActiveProfile targetProfile existing ingestion provider := by
  obtain ⟨runtime, hruntime, hconfig⟩ := hstart
  unfold publishEmbeddingMigrationVectors at hpublished
  split at hpublished
  · cases hpublished
  obtain ⟨provider, hprovider, hpublished⟩ := ok_of_liftBind hpublished
  rw [run_currentRuntime hruntime, hconfig] at hpublished
  obtain ⟨ingestion, hingestion, hpublished⟩ := ok_of_liftBind hpublished
  obtain ⟨⟨⟩, hactive, hpublished⟩ := ok_of_liftBind hpublished
  obtain ⟨⟨⟩, hdimension, hpublished⟩ := ok_of_liftBind hpublished
  exact ⟨ingestion, provider, registeredProvider_ok_iff.mp hprovider,
    managedIngestion_ok_iff.mp hingestion, checkActiveProfile_ok_iff.mp hactive,
    checkFixedDimension_ok_iff.mp hdimension⟩

/-- The store after the cutover. -/
def cutOver (updated : CollectionConfig) (store : Store F) : Store F :=
  (store.updateDir fun dir => { dir with config := updated }).updateRuntime fun runtime =>
    { runtime with config := some updated }

variable (state) in
/-- An accepted profile that is active already changes nothing; another one leads to the
configuration of the cutover or to its error. -/
theorem run_finalize {provider : EmbeddingProvider} {store : Store F}
    (hstore : Configured existing store)
    (haccepted : Accepted registry expectedActiveProfile targetProfile existing ingestion
      provider) :
    (finalizeEmbeddingProfileCutover state registry expectedActiveProfile targetProfile).run store
        [] =
      if expectedActiveProfile = targetProfile then (.ok existing, ⟨store, []⟩)
      else match cutoverConfig state targetProfile existing ingestion with
        | .ok updated => (.ok updated, ⟨cutOver updated store, []⟩)
        | .error error => (.error error, ⟨store, []⟩) := by
  obtain ⟨runtime, hruntime, hconfig⟩ := hstore
  unfold finalizeEmbeddingProfileCutover
  rw [registeredProvider_ok_iff.mpr haccepted.registered,
    (returns_lift rfl).run_bind, run_currentRuntime hruntime, hconfig]
  show Program.run (lift (managedIngestion existing) >>= _) store [] = _
  rw [managedIngestion_ok_iff.mpr haccepted.managed, (returns_lift rfl).run_bind, haccepted.active]
  split
  · rfl
  · rw [checkActiveProfile_ok_iff.mpr haccepted.active, (returns_lift rfl).run_bind,
      checkFixedDimension_ok_iff.mpr haccepted.dimension, (returns_lift rfl).run_bind]
    cases cutoverConfig state targetProfile existing ingestion with
    | ok updated => rfl
    | error error => rfl

/-- After its vectors are published, the cutover changes the profile and nothing else exactly
when the collection has no token or semantic policy and the name of the profile is trimmed,
or the profile is active already. -/
theorem finalize_changesOnlyProfile_iff {S : Type} [ScoreArith S] {records : List PendingRecord}
    {start store : Store F} {faults : List Fault} {sequences : List SequenceNumber}
    {world : World (Store F)} (hbuilt : Built state.collectionId existing)
    (hingestion : existing.ingestion = some ingestion) (hstart : Configured existing start)
    (hpublished : (publishEmbeddingMigrationVectors state registry expectedActiveProfile
      targetProfile S records).run start faults = (.ok sequences, world))
    (hstore : Configured existing store) :
    (∃ after, (finalizeEmbeddingProfileCutover state registry expectedActiveProfile
          targetProfile).Returns store (existing.withProfile targetProfile) after ∧
        Configured (existing.withProfile targetProfile) after) ↔
      expectedActiveProfile = targetProfile ∨
        ingestion.tokenChunking = none ∧ ingestion.semanticChunking = none ∧
          trim targetProfile = targetProfile := by
  obtain ⟨found, provider, haccepted⟩ := accepted_of_publish hstart hpublished
  cases hingestion.symm.trans haccepted.managed
  have hnamed : trim targetProfile ≠ "" := by
    refine registry.named targetProfile (Std.ExtTreeMap.mem_iff_isSome_getElem?.mpr ?_)
    exact Option.isSome_of_mem haccepted.registered
  have hcutover := cutoverConfig_iff hbuilt.canonical hingestion hnamed
  have hrun := run_finalize state hstore haccepted
  unfold Returns
  rw [hrun]
  by_cases hsame : expectedActiveProfile = targetProfile
  · rw [if_pos hsame]
    have hkept : existing.withProfile targetProfile = existing := by
      rw [CollectionConfig.withProfile, ← hsame, ← haccepted.active, hingestion, Option.map_some]
      exact congrArg (fun ingestion => { existing with ingestion := ingestion }) hingestion.symm
    rw [hkept]
    exact ⟨fun _ => .inl hsame, fun _ => ⟨store, rfl, hstore⟩⟩
  · rw [if_neg hsame, or_iff_right hsame, ← hcutover]
    constructor
    · rintro ⟨after, hreturns, -⟩
      cases hconfig : cutoverConfig state targetProfile existing ingestion with
      | error error =>
        rw [hconfig] at hreturns
        cases hreturns
      | ok updated =>
        rw [hconfig] at hreturns
        cases hreturns
        rfl
    · intro hconfig
      rw [hconfig]
      obtain ⟨runtime, hruntime, -⟩ := hstore
      refine ⟨_, rfl, { runtime with config := some (existing.withProfile targetProfile) }, ?_, rfl⟩
      exact congrArg (Option.map _) hruntime

end Cutover

/-! ### A token policy -/

section Sample

open WriteService

def movedCollection : AppState Unit := ⟨⟨"docs", CollectionId.validate_docs⟩, none, 100, fun _ => ()⟩

def sampleRegistry : EmbeddingProviderRegistry where
  providers := (∅ : Std.ExtTreeMap String EmbeddingProvider compare).insert "new" ⟨none⟩
  named profile hprofile := by
    rcases Std.ExtTreeMap.mem_insert.mp hprofile with hsame | hmem
    · rw [← Std.LawfulEqCmp.eq_of_compare hsame]
      decide
    · exact absurd hmem Std.ExtTreeMap.not_mem_empty

def movedIngestion (tokenChunking : Option TokenChunkingPolicy) : CollectionIngestionConfig :=
  ⟨"old", none, tokenChunking, none, false⟩

def movedConfig (tokenChunking : Option TokenChunkingPolicy) : CollectionConfig :=
  ⟨⟨"docs", CollectionId.validate_docs⟩, 1, Nat.one_pos, .dot, [], .default, some (movedIngestion tokenChunking)⟩

theorem built_movedConfig (tokenChunking : Option TokenChunkingPolicy) :
    CollectionConfig.Built movedCollection.collectionId (movedConfig tokenChunking) := by
  have hbuild : CollectionIngestionConfig.build "old" none tokenChunking none false =
      .ok (movedIngestion tokenChunking) := by
    refine CollectionIngestionConfig.build_ok_iff.mpr
      ⟨by decide, by decide, ?_, nofun, rfl⟩
    cases tokenChunking with
    | none => exact Nat.zero_le 1
    | some _ => exact Nat.le_refl 1
  exact .withIngestion (.new (dif_pos Nat.one_pos)) hbuild

def movedRecord : PendingRecord := ⟨.unsigned 7, [⟨0x3f800000⟩], .empty⟩

theorem publish_moved (tokenChunking : Option TokenChunkingPolicy) : ∃ world,
    (publishEmbeddingMigrationVectors movedCollection sampleRegistry "old" "new" ℝ
      [movedRecord]).run (Store.created movedCollection (movedConfig tokenChunking)) [] =
        (.ok [1], world) :=
  ⟨_, rfl⟩

theorem accepted_moved (tokenChunking : Option TokenChunkingPolicy) :
    Accepted sampleRegistry "old" "new" (movedConfig tokenChunking) (movedIngestion tokenChunking)
      ⟨none⟩ :=
  ⟨rfl, rfl, rfl, nofun⟩

theorem configured_created (config : CollectionConfig) :
    Configured config (Store.created movedCollection config) :=
  ⟨_, rfl, rfl⟩

theorem finalize_changesOnlyProfile_unchunked :
    ∃ after, (finalizeEmbeddingProfileCutover movedCollection sampleRegistry "old" "new").Returns
        (Store.created movedCollection (movedConfig none)) ((movedConfig none).withProfile "new")
        after ∧
      Configured ((movedConfig none).withProfile "new") after := by
  obtain ⟨world, hpublished⟩ := publish_moved none
  exact (finalize_changesOnlyProfile_iff (built_movedConfig none) rfl (configured_created _)
    hpublished (configured_created _)).mpr (.inr ⟨rfl, rfl, by decide⟩)

def wordPolicy : TokenChunkingPolicy := ⟨.tokens, 256, 32, .unicodeWordsV1, by decide⟩

/-- The vectors of the new profile are published and the token policy is lost. -/
theorem not_changesOnlyProfile :
    (∃ world, (publishEmbeddingMigrationVectors movedCollection sampleRegistry "old" "new" ℝ
      [movedRecord]).run (Store.created movedCollection (movedConfig (some wordPolicy))) [] =
        (.ok [1], world)) ∧
    (∃ after, (finalizeEmbeddingProfileCutover movedCollection sampleRegistry "old" "new").Returns
      (Store.created movedCollection (movedConfig (some wordPolicy)))
      ((movedConfig none).withProfile "new") after) ∧
    (movedConfig none).withProfile "new" ≠ (movedConfig (some wordPolicy)).withProfile "new" := by
  have hcutover : cutoverConfig movedCollection "new" (movedConfig (some wordPolicy))
      (movedIngestion (some wordPolicy)) = .ok ((movedConfig none).withProfile "new") :=
    cutoverConfig_eq (built_movedConfig _).canonical rfl rfl
  refine ⟨publish_moved (some wordPolicy), ⟨cutOver ((movedConfig none).withProfile "new")
    (Store.created movedCollection (movedConfig (some wordPolicy))), ?_⟩, by decide⟩
  unfold Returns
  rw [run_finalize movedCollection (configured_created _) (accepted_moved _), if_neg (by decide), hcutover]

end Sample

end Ketebe
