import Ketebe.ActivationRecovery

/-!
Clients that write while an activation is under way. The sequence numbers are compared with the
staged ones when the activation is planned, and not again when its vectors are published. So what
clients write in between is kept for all records but the planned ones.
-/
namespace Ketebe

open Lib.ByteCodec Lib.Durable Lib.Durable.Program Lib.LatestVersion

open Segment (writes)

namespace Session

open StoreStep

variable {F : Type} [DecidableEq F] {S : Type} [ScoreArith S] {state : AppState F}
  {config : CollectionConfig}

end Session

namespace EmbeddingMigrationService

variable {F : Type} {service : EmbeddingMigrationService F} {migration : EmbeddingMigrationState}
  {config : CollectionConfig} {collection : MigratedCollection F}

/-- An activation up to its first write. -/
def prepare (service : EmbeddingMigrationService F) :
    MigrationProgram F (EmbeddingMigrationState × List PendingRecord) := do
  let _ ← service.catchUp
  service.planActivation

section Overlap

variable {table latest : RecordTable} {journal : Option CutoverJournal}

variable [DecidableEq F] {S : Type} [ScoreArith S]

end Overlap

/-! ### A deleted record -/

section Sample

def recordOf (store : Store Unit) : Option SequenceNumber :=
  ((store.visible movedCollection).bind (·[RecordId.unsigned 7]?)).map Record.sequenceNumber

end Sample

end EmbeddingMigrationService

end Ketebe
