import Ketebe.MigratedRecords

/-!
What an activation leaves. It writes the state file, the journal, the vectors, the journal again and
the configuration, and may fail or crash at each of these writes.
-/
namespace Ketebe

open Lib.ByteCodec Lib.Durable Lib.Durable.Program

namespace EmbeddingMigrationService

variable {F : Type} {service : EmbeddingMigrationService F} {migration : EmbeddingMigrationState}
  {config updated : CollectionConfig} {table after : RecordTable} {records : List StagedRecord}
  {pending : List PendingRecord} {journal : Option CutoverJournal}
  {collection : MigratedCollection F}

/-! ### States of an activation -/

/-- The collection can be moved to the target profile, with this configuration. -/
structure Movable (service : EmbeddingMigrationService F) (migration : EmbeddingMigrationState)
    (config updated : CollectionConfig) : Prop where
  distinct : migration.sourceProfile ≠ migration.targetProfile
  accepted : ∃ ingestion provider, Accepted service.registry migration.sourceProfile
    migration.targetProfile config ingestion provider ∧
      WriteService.cutoverConfig service.app migration.targetProfile config ingestion = .ok updated

def activating (migration : EmbeddingMigrationState) : EmbeddingMigrationState :=
  { migration with status := .activating, error := none }

/-- No activation of the migration is under way. -/
structure Idle (service : EmbeddingMigrationService F) (migration : EmbeddingMigrationState)
    (journal : Option CutoverJournal) (config : CollectionConfig) (table : RecordTable)
    (collection : MigratedCollection F) : Prop where
  state : ∃ found, collection.state = some found ∧ found.version = migrationStateVersion ∧
    found.status = .ready ∧ journalOf found = journalOf migration
  journal : collection.journal = journal
  store : collection.store.Presents service.app config table (managedRecords table).length

/-- The state file names an activation with this plan. -/
structure Begun (migration : EmbeddingMigrationState) (table : RecordTable)
    (records : List StagedRecord) (pending : List PendingRecord)
    (collection : MigratedCollection F) : Prop where
  state : collection.state = some (activating migration)
  version : migration.version = migrationStateVersion
  snapshot : ∃ snapshot, collection.snapshot = some snapshot ∧
    snapshot.version = migrationStateVersion ∧ snapshot.records = records
  planned : ∃ provider, Planned migration provider table records pending

theorem Idle.down (h : Idle service migration journal config table collection) :
    Idle service migration journal config table collection.down :=
  ⟨h.state, h.journal, h.store.down⟩

theorem Movable.answers {room : ℕ} {store : Store F}
    (h : Movable service migration config updated)
    (hstore : store.Presents service.app config table room)
    (hanswers : store.Answers service.app config table) :
    (cutOver updated store).Answers service.app updated table := by
  obtain ⟨ingestion, provider, -, hcutover⟩ := h.accepted
  obtain ⟨runtime, -, hruntime, -⟩ := hanswers.running
  exact (hstore.cutOver (alike_of_cutoverConfig hstore.config_id hcutover)).answers
    (congrArg (Option.map _) hruntime)

theorem Begun.setStore (h : Begun migration table records pending collection) (store : Store F) :
    Begun migration table records pending (collection.setStore store) :=
  ⟨h.state, h.version, h.snapshot, h.planned⟩

/-! ### Programs that may stop -/

section Stops

variable {α β : Type} {holds : MigratedCollection F → Prop} {ok : α → MigratedCollection F → Prop}

/-- Failures and crashes leave a directory for which something holds. -/
def stops (holds : MigratedCollection F → Prop) (ok : α → MigratedCollection F → Prop) :
    Post (MigratedCollection F) EmbeddingMigrationError α :=
  ⟨ok, fun _ collection => holds collection.down, fun collection => holds collection.down⟩

theorem ensures_check {result : Except EmbeddingMigrationError α} {f : α → MigrationProgram F β}
    {done : β → MigratedCollection F → Prop} (h : holds collection.down)
    (hnext : ∀ value, result = .ok value → (f value).Ensures (stops holds done) collection) :
    (lift result >>= f).Ensures (stops holds done) collection :=
  ensures_bind (ensures_lift hnext fun _ _ => h)

end Stops

/-! ### Catching up -/

section CatchUp

variable {holds : MigratedCollection F → Prop} {provider : Embedding.EmbeddingProvider}
  {dimension : ℕ} {previous : List StagedRecord} {profile text : String}

end CatchUp

/-! ### Activation -/

section Activation

variable {holds : MigratedCollection F → Prop}

variable [DecidableEq F] {S : Type} [ScoreArith S]

end Activation

end EmbeddingMigrationService

end Ketebe
