import Ketebe.Activation

/-!
What the next start of the server finds after an activation that failed or crashed. The collection
is on the side of the source profile or of the target profile, and recovery finds out which. It
fails when the state file says that an activation has begun but its journal was not written yet, or
when records named the target profile already.
-/
namespace Ketebe

open Lib.ByteCodec Lib.Durable Lib.Durable.Program

namespace EmbeddingMigrationService

variable {F : Type} {service : EmbeddingMigrationService F} {migration : EmbeddingMigrationState}
  {config updated : CollectionConfig} {table after : RecordTable} {records : List StagedRecord}
  {pending : List PendingRecord} {journal : Option CutoverJournal}
  {collection : MigratedCollection F}

/-! ### Recovery -/

section Recovery

variable {α β : Type} {program : MigrationProgram F α} {f : α → MigrationProgram F β} {value : α}
  {before : MigratedCollection F}

/-- Without faults, the program ends with an error. -/
def Fails (program : MigrationProgram F α) (collection : MigratedCollection F) : Prop :=
  ∃ error world, program.run collection [] = (.error error, world)

theorem fails_getBind {f : MigratedCollection F → MigrationProgram F β}
    (h : Fails (f collection) collection) : Fails (get >>= f) collection := h

theorem fails_bind (h : Fails program collection) : Fails (program >>= f) collection := by
  obtain ⟨error, world, hrun⟩ := h
  refine ⟨error, world, ?_⟩
  show continueWith f (program.run collection []) = _
  rw [hrun]
  rfl

theorem fails_after (h : program.Returns before value collection) (hnext : Fails (f value) collection) :
    Fails (program >>= f) before := by
  obtain ⟨error, world, hrun⟩ := hnext
  exact ⟨error, world, h.run_bind.trans hrun⟩

theorem returns_readState {found : EmbeddingMigrationState} (hstate : collection.state = some found)
    (hversion : found.version = migrationStateVersion) :
    (readState : MigrationProgram F EmbeddingMigrationState).Returns collection found collection := by
  refine returns_getBind ?_
  rw [hstate]
  exact returns_bind rfl (by rw [if_neg (not_not.mpr hversion)]; exact returns_pure)

section Cutover

variable {found : CutoverJournal} {snapshot : MigrationSnapshot} {current : List Record}

end Cutover

theorem returns_recoverInterrupted {found value : EmbeddingMigrationState}
    (hstate : collection.state = some found) (hversion : found.version = migrationStateVersion)
    (hactivating : found.status = .activating) {after : MigratedCollection F}
    (h : (service.recoverCutover found).Returns collection value after) :
    service.recoverInterruptedCutovers.Returns collection true after := by
  refine returns_getBind ?_
  rw [if_neg (by rw [hstate]; exact nofun)]
  refine returns_bind (returns_readState hstate hversion) ?_
  rw [if_pos hactivating]
  exact returns_bind h returns_pure

theorem fails_recoverInterrupted {found : EmbeddingMigrationState}
    (hstate : collection.state = some found) (hversion : found.version = migrationStateVersion)
    (hactivating : found.status = .activating) (h : Fails (service.recoverCutover found) collection) :
    Fails service.recoverInterruptedCutovers collection := by
  refine fails_getBind ?_
  rw [if_neg (by rw [hstate]; exact nofun)]
  refine fails_after (returns_readState hstate hversion) ?_
  rw [if_pos hactivating]
  exact fails_bind h

/-- On which side of the cutover the collection is. -/
inductive Settled (service : EmbeddingMigrationService F) (migration : EmbeddingMigrationState)
    (config updated : CollectionConfig) (table : RecordTable)
    (collection : MigratedCollection F) : Prop where
  | source {found : EmbeddingMigrationState} (hstate : collection.state = some found)
      (hready : found.status = .ready) (hanswers : collection.store.Answers service.app config table)
  | target {found : EmbeddingMigrationState} {snapshot : MigrationSnapshot} {after : RecordTable}
      (hstate : collection.state = some found) (hactivated : found.status = .activated)
      (hsnapshot : collection.snapshot = some snapshot)
      (hmigrated : Migrated migration.targetProfile snapshot.records table after)
      (hanswers : collection.store.Answers service.app updated after)

/-- Records of the target profile were there before the migration. -/
def Mixed (migration : EmbeddingMigrationState) (table : RecordTable) : Prop :=
  ∃ (id : RecordId) (record : Record), table[id]? = some record ∧
    embeddingProfile record.metadata = some migration.targetProfile

/-- The server starts with the collection on one side of the cutover. Otherwise it does not start,
and the journal is one from before, not that of this activation, or the records were mixed. -/
def Restarts (service : EmbeddingMigrationService F) (migration : EmbeddingMigrationState)
    (journal : Option CutoverJournal) (config updated : CollectionConfig) (table : RecordTable)
    (collection : MigratedCollection F) : Prop :=
  (∃ found after, service.recoverInterruptedCutovers.Returns collection found after ∧
    Settled service migration config updated table after) ∨
  Fails service.recoverInterruptedCutovers collection ∧
    (collection.journal = journal ∧ journal ≠ some (journalOf migration) ∨ Mixed migration table)

theorem Begun.returns {value : EmbeddingMigrationState} {after : MigratedCollection F}
    (h : Begun migration table records pending collection)
    (hreturns : (service.recoverCutover (activating migration)).Returns collection value after) :
    service.recoverInterruptedCutovers.Returns collection true after :=
  returns_recoverInterrupted h.state h.version rfl hreturns

theorem Begun.fails (h : Begun migration table records pending collection)
    (hfails : Fails (service.recoverCutover (activating migration)) collection) :
    Fails service.recoverInterruptedCutovers collection :=
  fails_recoverInterrupted h.state h.version rfl hfails

end Recovery

/-! ### Sessions -/

section Sessions

variable [DecidableEq F] {S : Type} [ScoreArith S]

end Sessions

/-! ### A lost journal -/

section Sample

end Sample

end EmbeddingMigrationService

end Ketebe
