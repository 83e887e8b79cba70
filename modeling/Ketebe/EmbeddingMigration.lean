import Ketebe.ProfileCutover
import Ketebe.Provenance
import Ketebe.RecordFetch
import Ketebe.Reranking

/-!
The embedding migration of a collection. Vectors of the target profile are staged in a snapshot
file; activation writes the state file, a journal, the records, the journal again and the
configuration, and after a crash the records tell how far it came.
-/
namespace Ketebe

open Lib.ByteCodec Lib.Durable Lib.Durable.Program Lib.LatestVersion

/-! ### Files -/

inductive EmbeddingMigrationStatus where
  | running
  | ready
  | activating
  | activated
  | failed
  deriving DecidableEq

structure EmbeddingMigrationState where
  version : ℕ
  sourceProfile : String
  targetProfile : String
  targetProvider : String
  targetModel : String
  targetModelVersion : String
  status : EmbeddingMigrationStatus
  totalManagedRecords : ℕ
  completedRecords : ℕ
  catchUpRuns : UInt64
  reconciledRecords : ℕ
  lastFrontierSequence : SequenceNumber
  error : Option String
  deriving DecidableEq

/-- A record id as the snapshot file writes it. -/
inductive PersistedRecordId where
  | string (value : String)
  | u64 (value : UInt64)
  deriving DecidableEq

structure StagedRecord where
  id : PersistedRecordId
  sourceSequence : SequenceNumber
  vector : List F32
  deriving DecidableEq

structure MigrationSnapshot where
  version : ℕ
  sourceProfile : String
  targetProfile : String
  targetProvider : String
  targetModel : String
  targetModelVersion : String
  records : List StagedRecord
  deriving DecidableEq

inductive CutoverPhase where
  | prepared
  | walPublished
  | committed
  deriving DecidableEq

structure CutoverJournal where
  version : ℕ
  sourceProfile : String
  targetProfile : String
  targetProvider : String
  targetModel : String
  targetModelVersion : String
  phase : CutoverPhase
  deriving DecidableEq

inductive ManagementError where
  | collectionNotFound (collectionId : CollectionId)
  | collectionNotManageable
  | segment (error : SegmentError)

/-- The failures of a migration. Those of a provider and of a read view keep their cause. -/
inductive EmbeddingMigrationError where
  | migrationNotFound
  | migrationNotReady (status : EmbeddingMigrationStatus)
  | noIngestionSchema
  | providerProfileUnavailable (profile : String)
  | providerChanged
  | dimensionMismatch (expected actual : ℕ)
  | missingSourceText (id : RecordId)
  | sourceChanged
  | collectionNotFound (collectionId : CollectionId)
  | corrupt (message : String)
  | unreadable (error : SegmentError)
  | provider (error : Embedding.EmbeddingProviderError)
  | management (error : ManagementError)
  | write (error : WriteError)
  | io

/-- A collection beside the files of its migration, with what the process knows of it. -/
structure MigratedCollection (F : Type) where
  store : Store F
  state : Option EmbeddingMigrationState
  snapshot : Option MigrationSnapshot
  journal : Option CutoverJournal
  cache : Embedding.EmbeddingCache
  building : Bool

namespace MigratedCollection

variable {F : Type}

def setStore (store : Store F) (collection : MigratedCollection F) : MigratedCollection F :=
  { collection with store := store }

/-- What is left when the process stops. -/
def down (collection : MigratedCollection F) : MigratedCollection F :=
  { collection with
    store := collection.store.down
    cache := .new collection.cache.capacity
    building := false }

end MigratedCollection

namespace PersistedRecordId

def ofDomain : RecordId → PersistedRecordId
  | .string value _ => .string value
  | .unsigned value => .u64 value

def intoDomain : PersistedRecordId → Except EmbeddingMigrationError RecordId
  | .string value => (RecordId.ofString value).mapError fun error => .corrupt error.display
  | .u64 value => .ok (.unsigned value)

/-- The derived order, which is the one of record ids. -/
def key : PersistedRecordId → String ⊕ₗ ℕ
  | .string value => Sum.inlₗ value
  | .u64 value => Sum.inrₗ value.toNat

end PersistedRecordId

/-! ### Metadata -/

/-- The text in a field of the object under a key. -/
def textIn (metadata : Metadata) (key field : String) : Option String :=
  match (metadata.getObject key).bind fun object => object.get field with
  | some (.string text) => some text
  | _ => none

/-- The profile that a record's vector belongs to. -/
def embeddingProfile (metadata : Metadata) : Option String :=
  textIn metadata embeddingMetadataKey "profile"

def sourceText (metadata : Metadata) : Option String :=
  match textIn metadata chunkMetadataKey "text" with
  | some text => some text
  | none => textIn metadata embeddingMetadataKey "source_text"

def setEmbeddingProvenance (metadata : Metadata) (profile : String)
    (provider : Embedding.EmbeddingProvider) (dimension : ℕ) (sourceText : String) : Metadata :=
  let provenance := ((((((Metadata.empty.insert "profile" (textValue profile)).insert "provider"
    (textValue provider.providerName)).insert "model" (textValue provider.modelName)).insert
      "version" (textValue provider.modelVersion)).insert "dimension"
        (numberValue (UInt64.ofNat dimension))).insert "source_text" (textValue sourceText))
  metadata.insert embeddingMetadataKey provenance.toValue

/-! ### The service -/

/-- The collection, the registered profiles with their providers, and the hash of the cache. -/
structure EmbeddingMigrationService (F : Type) where
  app : AppState F
  registry : EmbeddingProviderRegistry
  embedding : String → Embedding.EmbeddingProvider
  sha256 : Bytes → Bytes

namespace EmbeddingMigrationService

def migrationStateVersion : ℕ := 1

def cutoverJournalVersion : ℕ := 1

variable {F : Type}

abbrev MigrationProgram (F α : Type) := Program (MigratedCollection F) EmbeddingMigrationError α

def onStore {ε α : Type} (program : Program (Store F) ε α) : Program (MigratedCollection F) ε α :=
  program.onPart MigratedCollection.store MigratedCollection.setStore

/-! ### Reading and writing the files -/

def readState : MigrationProgram F EmbeddingMigrationState := do
  let collection ← get
  match collection.state with
  | none => throw .migrationNotFound
  | some state => do
    attempt .io
    if state.version ≠ migrationStateVersion then
      throw (.corrupt s!"unsupported migration state version {state.version}")
    else pure state

def readSnapshot : MigrationProgram F MigrationSnapshot := do
  let collection ← get
  match collection.snapshot with
  | none => throw (.corrupt "migration snapshot is missing")
  | some snapshot => do
    attempt .io
    if snapshot.version ≠ migrationStateVersion then
      throw (.corrupt s!"unsupported migration snapshot version {snapshot.version}")
    else pure snapshot

def readJournal : MigrationProgram F CutoverJournal := do
  let collection ← get
  match collection.journal with
  | none => throw (.corrupt "cutover journal is missing")
  | some journal => do
    attempt .io
    if journal.version ≠ cutoverJournalVersion then
      throw (.corrupt s!"unsupported cutover journal version {journal.version}")
    else pure journal

def persistState (state : EmbeddingMigrationState) : MigrationProgram F Unit :=
  durable .io fun collection => { collection with state := some state }

def persistSnapshot (snapshot : MigrationSnapshot) : MigrationProgram F Unit :=
  durable .io fun collection => { collection with snapshot := some snapshot }

def validateSnapshotIdentity (migration : EmbeddingMigrationState) (snapshot : MigrationSnapshot) :
    Except EmbeddingMigrationError Unit :=
  if snapshot.sourceProfile ≠ migration.sourceProfile ∨
      snapshot.targetProfile ≠ migration.targetProfile ∨
      snapshot.targetProvider ≠ migration.targetProvider ∨
      snapshot.targetModel ≠ migration.targetModel ∨
      snapshot.targetModelVersion ≠ migration.targetModelVersion then
    .error (.corrupt "migration state and staged snapshot disagree")
  else .ok ()

def validateJournalIdentity (migration : EmbeddingMigrationState) (journal : CutoverJournal) :
    Except EmbeddingMigrationError Unit :=
  if journal.sourceProfile ≠ migration.sourceProfile ∨
      journal.targetProfile ≠ migration.targetProfile ∨
      journal.targetProvider ≠ migration.targetProvider ∨
      journal.targetModel ≠ migration.targetModel ∨
      journal.targetModelVersion ≠ migration.targetModelVersion then
    .error (.corrupt "migration state and cutover journal disagree")
  else .ok ()

def validateTargetVector (vector : List F32) (dimension : ℕ) :
    Except EmbeddingMigrationError Unit :=
  if vector.length ≠ dimension then .error (.dimensionMismatch dimension vector.length)
  else if vector.any fun value => !value.isFinite then
    .error (.provider (.failed "provider returned non-finite embedding"))
  else .ok ()

/-- The journal that an activation starts with. -/
def journalOf (migration : EmbeddingMigrationState) : CutoverJournal :=
  ⟨cutoverJournalVersion, migration.sourceProfile, migration.targetProfile,
    migration.targetProvider, migration.targetModel, migration.targetModelVersion, .prepared⟩

/-! ### The collection -/

variable (service : EmbeddingMigrationService F)

/-- The configuration of a collection that can be managed. -/
def collectionInfo : MigrationProgram F CollectionConfig := do
  let collection ← get
  match collection.store.runtime with
  | none => throw (.management (.collectionNotFound service.app.collectionId))
  | some runtime => match runtime.config with
    | none => throw (.management .collectionNotManageable)
    | some config => do
      let _ ← lift (runtime.querySegments.mapError fun error => .management (.segment error))
      pure config

def managedLiveRecords : MigrationProgram F (List Record) := do
  let collection ← get
  match collection.store.runtime with
  | none => throw (.collectionNotFound service.app.collectionId)
  | some runtime => do
    let segments ← lift (runtime.querySegments.mapError .unreadable)
    pure (Ketebe.managedLiveRecords segments service.app.collectionId)

def validateTargetProvider (migration : EmbeddingMigrationState) :
    Except EmbeddingMigrationError Embedding.EmbeddingProvider :=
  match service.registry.resolve migration.targetProfile with
  | none => .error (.providerProfileUnavailable migration.targetProfile)
  | some _ =>
      let provider := service.embedding migration.targetProfile
      if provider.providerName ≠ migration.targetProvider ∨
          provider.modelName ≠ migration.targetModel ∨
          provider.modelVersion ≠ migration.targetModelVersion then .error .providerChanged
      else .ok provider

/-! ### Recovery of a cutover -/

def interruptedText : String := "interrupted before WAL publication; activation can be retried"

def disagreeText : String := "cutover journal and replayed managed vectors disagree"

def finish (migration : EmbeddingMigrationState) (status : EmbeddingMigrationStatus)
    (error : Option String) : MigrationProgram F EmbeddingMigrationState := do
  persistState { migration with status := status, error := error }
  pure { migration with status := status, error := error }

def finalizeCutover (migration : EmbeddingMigrationState) : MigrationProgram F Unit := do
  let _ ← onStore (mapError (WriteService.finalizeEmbeddingProfileCutover service.app
    service.registry migration.sourceProfile migration.targetProfile) .write)

/-- The `==` of vectors of `f32`. -/
def eqVectors : List F32 → List F32 → Bool
  | [], [] => true
  | left :: lefts, right :: rights => left.partialCmp right == some .eq && eqVectors lefts rights
  | _, _ => false

/-- A record has the vector that was staged for it. -/
def matchesTarget (migration : EmbeddingMigrationState) (current : List Record)
    (staged : StagedRecord) : Bool :=
  match current.find? fun record => PersistedRecordId.ofDomain record.id = staged.id with
  | some record => embeddingProfile record.metadata == some migration.targetProfile &&
      eqVectors record.vector.values staged.vector
  | none => false

/-- What becomes of a cutover whose configuration is still that of the source profile. -/
def settleCutover (migration : EmbeddingMigrationState) (journal : CutoverJournal)
    (records : List StagedRecord) (current : List Record) :
    MigrationProgram F EmbeddingMigrationState := do
  let targetMatches := records.countP (matchesTarget migration current)
  if targetMatches = records.length ∧ records ≠ [] then do
    service.finalizeCutover migration
    finish migration .activated none
  else if targetMatches = 0 ∧ journal.phase = .prepared then
    finish migration .ready (some interruptedText)
  else do
    let _ ← finish migration .failed (some disagreeText)
    throw (.corrupt disagreeText)

def recoverCutover (migration : EmbeddingMigrationState) :
    MigrationProgram F EmbeddingMigrationState := do
  let journal ← readJournal
  lift (validateJournalIdentity migration journal)
  let config ← service.collectionInfo
  match config.ingestion with
  | none => throw .noIngestionSchema
  | some ingestion =>
    if ingestion.embeddingProfile = migration.targetProfile then finish migration .activated none
    else if ingestion.embeddingProfile ≠ migration.sourceProfile then throw .sourceChanged
    else do
      let snapshot ← readSnapshot
      let current ← service.managedLiveRecords
      service.settleCutover migration journal snapshot.records current

def status : MigrationProgram F EmbeddingMigrationState := do
  let state ← readState
  if state.status = .activating then service.recoverCutover state
  else if state.status = .running then do
    let collection ← get
    if collection.building then pure state
    else finish state .failed (some "migration was interrupted before completion")
  else pure state

/-- The part of `recover_interrupted_cutovers` that concerns this collection, which the server
runs before it listens. It answers whether there was a cutover to recover. -/
def recoverInterruptedCutovers : MigrationProgram F Bool := do
  let collection ← get
  if collection.state = none then pure false
  else do
    let state ← readState
    if state.status = .activating then do
      let _ ← service.recoverCutover state
      pure true
    else pure false

/-! ### Catching up -/

/-- Embeds one text through the cache. -/
def embedCached (profile : String) (provider : Embedding.EmbeddingProvider) (dimension : ℕ)
    (text : String) : MigrationProgram F (List F32) := do
  let collection ← get
  let answer := Embedding.embedTextsCached service.sha256 profile provider collection.cache [text]
    dimension
  modify fun collection => { collection with cache := answer.2 }
  let vectors ← lift (answer.1.mapError .provider)
  match vectors.getLast? with
  | some vector => pure vector
  | none => throw (.provider (.failed "embedding cache returned no migration vector"))

/-- What is staged for a record, and whether it is embedded anew. -/
def stageRecord (migration : EmbeddingMigrationState) (provider : Embedding.EmbeddingProvider)
    (dimension : ℕ) (previous : List StagedRecord) (record : Record) :
    MigrationProgram F (StagedRecord × Bool) := do
  let key := PersistedRecordId.ofDomain record.id
  -- Of several staged records with one id the last one counts.
  match (previous.reverse.find? fun staged => staged.id = key).filter fun staged =>
      staged.sourceSequence == record.sequenceNumber with
  | some existing => pure (existing, false)
  | none => match sourceText record.metadata with
    | none => throw (.missingSourceText record.id)
    | some text => do
      let vector ← service.embedCached migration.targetProfile provider dimension text
      lift (validateTargetVector vector dimension)
      pure (⟨key, record.sequenceNumber, vector⟩, true)

def stageRecords (migration : EmbeddingMigrationState) (provider : Embedding.EmbeddingProvider)
    (dimension : ℕ) (previous : List StagedRecord) :
    List Record → MigrationProgram F (List (StagedRecord × Bool))
  | [] => pure []
  | record :: rest => do
    let staged ← service.stageRecord migration provider dimension previous record
    let others ← stageRecords migration provider dimension previous rest
    pure (staged :: others)

/-- The previous ids that are not staged any more. -/
def removedIds (previous staged : List StagedRecord) : List PersistedRecordId :=
  (previous.map StagedRecord.id).dedup.filter fun id => id ∉ staged.map StagedRecord.id

/-- The largest sequence number of these records, 0 without one. -/
def frontier (records : List Record) : SequenceNumber :=
  CollectionRuntime.maxOf (records.map Record.sequenceNumber)

def sortStaged (staged : List StagedRecord) : List StagedRecord :=
  staged.mergeSort fun first second => first.id.key ≤ second.id.key

def caughtUp (migration : EmbeddingMigrationState) (current : List Record) (reconciled : ℕ) :
    EmbeddingMigrationState :=
  { migration with
    totalManagedRecords := current.length
    completedRecords := current.length
    catchUpRuns := SequenceNumber.saturatingSucc migration.catchUpRuns
    reconciledRecords := min (migration.reconciledRecords + reconciled) maxSequence
    lastFrontierSequence := frontier current
    error := none }

def catchUp : MigrationProgram F EmbeddingMigrationState := do
  let migration ← service.status
  if migration.status ≠ .ready then throw (.migrationNotReady migration.status)
  else do
    let provider ← lift (service.validateTargetProvider migration)
    let snapshot ← readSnapshot
    lift (validateSnapshotIdentity migration snapshot)
    let config ← service.collectionInfo
    let current ← service.managedLiveRecords
    let stagings ← service.stageRecords migration provider config.dimension snapshot.records current
    let staged := stagings.map Prod.fst
    let reconciled := min (stagings.countP Prod.snd + (removedIds snapshot.records staged).length)
      maxSequence
    persistSnapshot { snapshot with records := sortStaged staged }
    persistState (caughtUp migration current reconciled)
    pure (caughtUp migration current reconciled)

/-! ### Activation -/

/-- The write that replaces the vector of a staged record. -/
def pendingRecord (migration : EmbeddingMigrationState) (provider : Embedding.EmbeddingProvider)
    (current : List Record) (staged : StagedRecord) :
    Except EmbeddingMigrationError PendingRecord := do
  let id ← staged.id.intoDomain
  match current.find? fun record => record.id = id with
  | none => throw .sourceChanged
  | some record =>
    if record.sequenceNumber ≠ staged.sourceSequence then throw .sourceChanged
    else match sourceText record.metadata with
      | none => throw (.missingSourceText id)
      | some text => pure ⟨id, staged.vector, setEmbeddingProvenance record.metadata
          migration.targetProfile provider record.vector.length text⟩

/-- The part of an activation that only reads, behind its catch-up. -/
def planActivation : MigrationProgram F (EmbeddingMigrationState × List PendingRecord) := do
  let migration ← service.status
  let snapshot ← readSnapshot
  lift (validateSnapshotIdentity migration snapshot)
  let provider ← lift (service.validateTargetProvider migration)
  let current ← service.managedLiveRecords
  if current.length ≠ snapshot.records.length then throw .sourceChanged
  else do
    let pending ← lift (snapshot.records.mapM (pendingRecord migration provider current))
    pure (migration, pending)

end EmbeddingMigrationService

end Ketebe
