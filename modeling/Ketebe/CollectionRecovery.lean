import Ketebe.IntegrityVerifier

/-!
Loading a collection when the server starts. The loader reads the files that
the verifier reads, with checks of its own; a report without a fatal check
promises that it succeeds only for the files on which the two sets agree.
-/
namespace Ketebe

open Lib.ByteCodec

inductive RecoveryError where
  | io
  | json
  | metadata (error : MetadataError)
  | runtime (error : RuntimeError)
  | namespace (error : NamespaceError)

namespace CollectionFiles

section Segments

variable (entries : List NamedEntry) (id : CollectionId) (checkpoint : Checkpoint)

def openReferenced (segmentId : SegmentId) : Except RuntimeError Segment := do
  let segment ← (SegmentsPath.openSegment entries segmentId).mapError fun error =>
    .artifact (.segment error)
  if segment.collectionId ≠ id then
    throw (.invalidCollectionMetadata
      "checkpoint references a segment from a different collection")
  else if checkpoint.sequenceNumber < segment.maxSequence then
    throw (.invalidCollectionMetadata "checkpoint sequence is older than a referenced segment")
  else pure segment

end Segments

/-- Opens the segment directory, creating it if it is missing. -/
def openSegments : SegmentsPath → Except RuntimeError (List NamedEntry)
  | .missing => .ok []
  | .file => .error (.artifact (.segment .backend))
  | .directory entries => .ok entries

def loadSegments (entries : List NamedEntry) (id : CollectionId) :
    Option Checkpoint → Except RuntimeError (List Segment)
  | some checkpoint =>
      if checkpoint.collectionId ≠ id then
        .error (.invalidCollectionMetadata "checkpoint belongs to a different collection")
      else checkpoint.segments.mapM (openReferenced entries id checkpoint)
  | none => (SegmentsPath.discover entries).mapError fun error => .artifact (.segment error)

def loadWal (scope : Option DataPlaneScope) (path : Option Bytes) :
    Except RuntimeError (WalWriter × List WalMutation) := do
  let wal ← (Wal.openWithPolicy path .durable).mapError fun error => .artifact (.wal error)
  let replay ← wal.replay.mapError fun error => .artifact (.wal error)
  (checkMutations scope replay.entries).mapError .artifact
  pure (⟨wal.syncPolicy, wal.lastSequence⟩, replay.entries)

/-- The scope of a namespace must be that of the collection in it. -/
def checkIdentity (scope : Option DataPlaneScope) (config : CollectionConfig) :
    Except RuntimeError Unit :=
  if scope.any fun scope => scope.collectionId ≠ config.id then
    .error (.invalidCollectionMetadata
      "storage namespace collection identity does not match collection metadata")
  else .ok ()

variable {F : Type}

/-- The runtime before the indexes are restored, which never fails. -/
def loadRuntime (files : CollectionFiles F) (scope : Option DataPlaneScope)
    (config : CollectionConfig) : Except RuntimeError CollectionRuntime := do
  checkIdentity scope config
  let entries ← openSegments files.segments
  let checkpoint ← files.checkpoint.mapError fun _ => .artifact .checkpoint
  let segments ← loadSegments entries config.id checkpoint
  let (writer, replayed) ← loadWal scope files.wal
  let mutable ← AppState.unsealed config
    ((checkpoint.map Checkpoint.sequenceNumber).getD 0) replayed
  pure (.writable scope config segments mutable (some writer) checkpoint)

/-- A directory without metadata is passed over. -/
def load (files : CollectionFiles F) (scope : Option DataPlaneScope) :
    Except RecoveryError (Option CollectionRuntime) :=
  match files.metadata with
  | .missing => .ok none
  | .unreadable => .error .io
  | .malformed => .error .json
  | .decoded persisted => do
    let config ← persisted.intoDomain.mapError .metadata
    let runtime ← (files.loadRuntime scope config).mapError .runtime
    pure (some runtime)

end CollectionFiles

namespace DataDirectory

variable {F : Type} (directory : DataDirectory F)

def scopeOf (project : ProjectId) : DataPlaneScope := ⟨project, directory.collectionId⟩

/-- The directories to load with their scopes. The default project takes over an unscoped
directory that the catalog binds to it. -/
def recoveryTargets :
    Except RecoveryError (List (CollectionFiles F × Option DataPlaneScope)) :=
  let unscoped := directory.legacy.toList.map fun files => (files, none)
  match directory.project, directory.namespaced, directory.legacy with
  | some project, some files, _ => do
      (files.manifest.validateExisting (directory.scopeOf project)).mapError .namespace
      pure ((files, some (directory.scopeOf project)) :: unscoped)
  | some project, none, some files =>
      if project ≠ .defaultProject then .error (.namespace .missingNamespace)
      else do
        (files.manifest.validateOrInitialize (directory.scopeOf project)).mapError .namespace
        pure [(files, some (directory.scopeOf project))]
  | some project, none, none =>
      if project ≠ .defaultProject then .error (.namespace .missingNamespace) else .ok []
  | none, _, _ => .ok unscoped

/-- What the catalog of the server holds for the collection after recovery; the directory
that is loaded last wins. -/
def recover : Except RecoveryError (Option CollectionRuntime) := do
  let targets ← directory.recoveryTargets
  let loaded ← targets.mapM fun target => target.1.load target.2
  pure (loaded.filterMap id).getLast?

end DataDirectory

/-! ### The configuration -/

namespace CollectionConfig

variable {config : CollectionConfig}

/-- The parts of a configuration that recovery checks artifacts against. -/
structure Alike (config other : CollectionConfig) : Prop where
  id : config.id = other.id
  dimension : config.dimension = other.dimension

theorem alike_ensure (config : CollectionConfig) :
    config.ensureIngestionLexicalField.Alike config := by
  obtain ⟨fields, hfields⟩ := config.ensureIngestionLexicalField_eq
  rw [hfields]
  exact ⟨rfl, rfl⟩

theorem Alike.trans {other third : CollectionConfig} (h : config.Alike other)
    (h' : other.Alike third) : config.Alike third :=
  ⟨h.id.trans h'.id, h.dimension.trans h'.dimension⟩

theorem alike_withSchema (config : CollectionConfig) (fields : List FieldPath)
    (analyzer : LexicalAnalyzerConfig) :
    ((config.withLexicalFields fields).withLexicalAnalyzer analyzer).Alike config := by
  obtain ⟨hid, hdimension⟩ := alike_ensure
    { config with lexicalFields := Lib.SortedSet.sortDedup fields }
  exact ⟨hid, hdimension⟩

theorem alike_withIngestion {ingestion : CollectionIngestionConfig} :
    (config.withIngestion ingestion).Alike config := by
  obtain ⟨hid, hdimension⟩ := alike_ensure { config with ingestion := some ingestion }
  exact ⟨hid, hdimension⟩

theorem Alike.checkMutation {other : CollectionConfig} (h : config.Alike other)
    (mutation : WalMutation) :
    AppState.checkMutation config mutation = AppState.checkMutation other mutation := by
  cases mutation with
  | upsert id record =>
    simp only [AppState.checkMutation, validateRecord, validateVector, h.dimension]
  | delete id recordId sequence => rfl

end CollectionConfig

/-- Every chunking policy and the profile of a persisted configuration are valid. -/
def PersistedCollection.IngestionValid (persisted : PersistedCollection) : Prop :=
  ∀ ingestion, persisted.ingestion = some ingestion → ∃ config, ingestion.intoDomain = .ok config

/-- Verified metadata is that of the collection, and recovery reads it unless the ingestion
configuration, which the verifier does not look at, is invalid. -/
theorem intoDomain_of_verified {id : CollectionId} {file : MetadataFile} {config : CollectionConfig}
    (h : IntegrityVerifier.verifyMetadata id file = .ok config) : ∃ persisted,
      file = .decoded persisted ∧ config.id = id ∧
        (∀ full, persisted.intoDomain = .ok full → full.Alike config) ∧
        ((∃ full, persisted.intoDomain = .ok full) ↔ persisted.IngestionValid) := by
  unfold IntegrityVerifier.verifyMetadata at h
  split at h
  · cases h
  · cases h
  · cases h
  rename_i persisted
  refine ⟨persisted, rfl, ?_⟩
  split at h
  · cases h
  rename_i hversion
  split at h
  · cases h
  rename_i hid
  obtain ⟨fields, hfields, h⟩ := except_bind_ok.mp h
  obtain ⟨fresh, hfresh, h⟩ := except_bind_ok.mp h
  cases h
  have hfields' : persisted.lexicalFields.mapM (fun segments =>
      (FieldPath.new segments).mapError fun error =>
        MetadataError.invalidCollectionMetadata error.display) = .ok fields := by
    rw [except_mapM_ok]
    exact (except_mapM_ok.mp (mapError_ok_iff.mp hfields)).imp fun _ _ hpath =>
      mapError_ok_iff.mpr hpath
  have hnew := mapError_ok_iff.mp hfresh
  have hfreshId : fresh.id = id := by
    unfold CollectionConfig.new at hnew
    split at hnew
    · cases hnew
      rfl
    · cases hnew
  -- Recovery takes the same steps up to the ingestion configuration.
  have hsame : persisted.intoDomain = persisted.ingestion.mapM PersistedIngestionConfig.intoDomain >>=
      fun ingestion => ingestion.elim
        (.ok ((fresh.withLexicalFields fields).withLexicalAnalyzer persisted.lexicalAnalyzer))
        fun ingestion => .ok (((fresh.withLexicalFields fields).withLexicalAnalyzer
          persisted.lexicalAnalyzer).withIngestion ingestion) := by
    rw [PersistedCollection.intoDomain, if_neg hversion, not_not.mp hid, CollectionId.new_asStr]
    show (persisted.lexicalFields.mapM (fun segments =>
      (FieldPath.new segments).mapError fun error =>
        MetadataError.invalidCollectionMetadata error.display) >>= _) = _
    rw [hfields', except_ok_bind, hnew]
    refine congrArg _ (funext fun ingestion => ?_)
    cases ingestion <;> rfl
  have halike := CollectionConfig.alike_withSchema fresh fields persisted.lexicalAnalyzer
  refine ⟨halike.id.trans hfreshId, fun full hfull => ?_, ?_⟩
  · rw [hsame] at hfull
    obtain ⟨ingestion, -, hfull⟩ := except_bind_ok.mp hfull
    cases ingestion with
    | none =>
      cases hfull
      exact ⟨rfl, rfl⟩
    | some ingestion =>
      cases hfull
      exact CollectionConfig.alike_withIngestion
  · rw [hsame]
    unfold PersistedCollection.IngestionValid
    cases hingestion : persisted.ingestion with
    | none => exact ⟨fun _ _ hsome => (by cases hsome), fun _ => ⟨_, rfl⟩⟩
    | some ingestion =>
      rw [Option.mapM_some]
      cases hinto : ingestion.intoDomain with
      | error error => simp [hinto, Functor.map, Except.map, bind, Except.bind]
      | ok value =>
        refine ⟨fun _ other hother => ?_, fun _ => ⟨_, rfl⟩⟩
        cases hother
        exact ⟨value, hinto⟩

/-! ### The segments and the log -/

namespace CollectionFiles

open IntegrityVerifier IntegrityCheck

/-- The file that stands at the location of the id can be the one that the checkpoint means.
A file that holds a segment of an id which the checkpoint does not refer to is passed over
by the verifier, so nothing else keeps its numbers from being later than the checkpoint. -/
def Located (entries : List NamedEntry) (checkpoint : Checkpoint) (id : SegmentId) : Prop :=
  ∃ content, SegmentsPath.entryAt entries id = some (.file content) ∧
    ∀ segment, content = .ok segment → segment.id ∉ checkpoint.segments →
      segment.maxSequence ≤ checkpoint.sequenceNumber

section Verified

variable {id : CollectionId} {config : CollectionConfig} {entries : List NamedEntry}

theorem openReferenced_ok {checkpoint : Checkpoint} {segmentId : SegmentId} {segment : Segment} :
    openReferenced entries id checkpoint segmentId = .ok segment ↔
      SegmentsPath.openSegment entries segmentId = .ok segment ∧ segment.collectionId = id ∧
        segment.maxSequence ≤ checkpoint.sequenceNumber := by
  unfold openReferenced
  rw [except_bind_ok]
  constructor
  · rintro ⟨opened, hopened, h⟩
    split at h
    · cases h
    rename_i hcollection
    split at h
    · cases h
    rename_i hsequence
    cases h
    exact ⟨mapError_ok_iff.mp hopened, not_not.mp hcollection, not_lt.mp hsequence⟩
  · rintro ⟨hopened, hcollection, hsequence⟩
    refine ⟨segment, mapError_ok_iff.mpr hopened, ?_⟩
    rw [if_neg (not_not.mpr hcollection), if_neg (not_lt.mpr hsequence)]
    rfl

/-- Among verified segments the located ones are those that can be opened. -/
theorem openReferenced_of_verified {checkpoint : Checkpoint} {discovered : List Segment}
    (hdiscover : SegmentsPath.discover entries = .ok discovered)
    (hquiet : ∀ segment ∈ discovered, Quiet (verifySegment id config (some checkpoint) segment))
    {segmentId : SegmentId} : (∃ segment, openReferenced entries id checkpoint segmentId = .ok segment) ↔
      Located entries checkpoint segmentId := by
  constructor
  · rintro ⟨segment, h⟩
    obtain ⟨hopened, -, hsequence⟩ := openReferenced_ok.mp h
    refine ⟨_, SegmentsPath.openSegment_ok.mp hopened, fun other hother _ => ?_⟩
    cases hother
    exact hsequence
  · rintro ⟨content, hentry, hlater⟩
    obtain ⟨entry, hmem, hcontent⟩ := SegmentsPath.mem_of_entryAt hentry
    obtain ⟨segment, hsegment, rfl⟩ := (SegmentsPath.mem_discover hdiscover).1 entry hmem _ hcontent
    obtain ⟨hcollection, hvalid⟩ := quiet_verifySegment.mp (hquiet segment hsegment)
    refine ⟨segment, openReferenced_ok.mpr ⟨SegmentsPath.openSegment_ok.mpr hentry, hcollection, ?_⟩⟩
    by_cases hreferenced : segment.id ∈ checkpoint.segments
    · exact (hvalid (by simp [referenced, hreferenced])).2 checkpoint rfl
    · exact hlater segment rfl hreferenced

theorem loadSegments_of_verified {path : SegmentsPath} {checkpoint : Option Checkpoint}
    (howner : ∀ value, checkpoint = some value → value.collectionId = id)
    (hquiet : Quiet (verifySegments id config checkpoint path).1) :
    (∃ segments, loadSegments path.entries id checkpoint = .ok segments) ↔
      ∀ value, checkpoint = some value → ∀ segmentId ∈ value.segments,
        Located path.entries value segmentId := by
  obtain ⟨-, discovered, hdiscover, hsegments⟩ := quiet_verifySegments.mp hquiet
  cases checkpoint with
  | none =>
    refine ⟨fun _ _ => nofun, fun _ => ⟨discovered, ?_⟩⟩
    rw [loadSegments, hdiscover]
    rfl
  | some value =>
    rw [loadSegments, if_neg (not_not.mpr (howner value rfl)), except_mapM_exists]
    simp only [openReferenced_of_verified hdiscover hsegments, Option.some.injEq, forall_eq']

theorem openSegments_ok {path : SegmentsPath} {entries : List NamedEntry} :
    openSegments path = .ok entries ↔ path ≠ .file ∧ entries = path.entries := by
  cases path with
  | missing => simp [openSegments, SegmentsPath.entries, eq_comm]
  | file => simp [openSegments]
  | directory entries => simp [openSegments, SegmentsPath.entries, eq_comm]

/-- Opening the log replays what the verifier has replayed. -/
theorem loadWal_of_verified {scope : Option DataPlaneScope} {path : Option Bytes}
    (hscope : ∀ value, scope = some value → value.collectionId = id)
    (hquiet : Quiet (verifyWal id config path)) : ∃ writer replayed,
      loadWal scope path = .ok (writer, replayed) ∧
        ∀ mutation ∈ replayed, mutation.Accepted id config := by
  obtain ⟨replay, hreplay, haccepted⟩ := quiet_verifyWal.mp hquiet
  have hopened : Wal.openWithPolicy path .durable = .ok ⟨path.getD [], .durable,
      replay.entries.getLast?.map WalMutation.sequenceNumber⟩ := by
    rw [Wal.openWithPolicy, hreplay]
    rfl
  have hagain : Wal.decodeLog (path.getD []) = .ok replay := by
    cases path with
    | none =>
      cases hreplay
      exact Wal.decodeFrames_nil none
    | some bytes => exact hreplay
  have hchecked : checkMutations scope replay.entries = .ok () := by
    rw [checkMutations, except_forM_ok]
    intro mutation hmutation
    cases scope with
    | none => rfl
    | some value =>
      rw [checkScope, if_pos ((hscope value rfl).trans (haccepted mutation hmutation).collection.symm)]
  refine ⟨⟨.durable, replay.entries.getLast?.map WalMutation.sequenceNumber⟩, replay.entries, ?_,
    haccepted⟩
  refine except_bind_ok.mpr ⟨_, mapError_ok_iff.mpr hopened, ?_⟩
  refine except_bind_ok.mpr ⟨replay, mapError_ok_iff.mpr hagain, ?_⟩
  exact except_bind_ok.mpr ⟨(), mapError_ok_iff.mpr hchecked, rfl⟩

theorem unsealed_of_accepted (checkpointSequence : SequenceNumber) {entries : List WalMutation}
    (h : ∀ mutation ∈ entries, mutation.Accepted config.id config) :
    ∃ mutable, AppState.unsealed config checkpointSequence entries = .ok mutable := by
  induction entries with
  | nil => exact ⟨[], rfl⟩
  | cons mutation rest ih =>
    obtain ⟨hcollection, hvalid⟩ := h mutation (List.mem_cons_self ..)
    obtain ⟨mutable, hmutable⟩ := ih fun other hother => h other (List.mem_cons_of_mem _ hother)
    rw [AppState.unsealed, if_neg (not_not.mpr hcollection)]
    by_cases hsealed : mutation.sequenceNumber ≤ checkpointSequence
    · rw [if_pos hsealed]
      exact ⟨mutable, hmutable⟩
    · rw [if_neg hsealed, hvalid, hmutable]
      exact ⟨mutation :: mutable, rfl⟩

end Verified

/-- The files that recovery loads among those that pass verification. -/
structure Loadable {F : Type} (files : CollectionFiles F) : Prop where
  ingestion : ∀ persisted, files.metadata = .decoded persisted → persisted.IngestionValid
  directory : files.segments ≠ .file
  located : ∀ checkpoint, files.checkpoint = .ok (some checkpoint) →
    ∀ id ∈ checkpoint.segments, Located files.segments.entries checkpoint id

/-- Loading returns a runtime of the collection. -/
def Loads {F : Type} (files : CollectionFiles F) (id : CollectionId)
    (scope : Option DataPlaneScope) : Prop :=
  ∃ runtime config, files.load scope = .ok (some runtime) ∧ runtime.config = some config ∧
    config.id = id

section Loading

variable {F : Type} {files : CollectionFiles F} {id : CollectionId} {config full : CollectionConfig}
  {checkpoint : Option Checkpoint} {scope : Option DataPlaneScope}

theorem loadRuntime_of_verified (h : Verified id files config checkpoint)
    (hscope : ∀ value, scope = some value → value.collectionId = id) (hid : full.id = id)
    (hfull : full.Alike config) : (∃ runtime, files.loadRuntime scope full = .ok runtime) ↔
      files.segments ≠ .file ∧ ∀ value, checkpoint = some value → ∀ segmentId ∈ value.segments,
        Located files.segments.entries value segmentId := by
  have hsegments := loadSegments_of_verified h.owner h.segments
  obtain ⟨writer, replayed, hwal, haccepted⟩ := loadWal_of_verified hscope h.wal
  have hreplayed : ∀ mutation ∈ replayed, mutation.Accepted full.id full := by
    intro mutation hmutation
    obtain ⟨hcollection, hvalid⟩ := haccepted mutation hmutation
    exact ⟨hcollection.trans hid.symm, (hfull.checkMutation mutation).trans hvalid⟩
  obtain ⟨mutable, hmutable⟩ := unsealed_of_accepted
    ((checkpoint.map Checkpoint.sequenceNumber).getD 0) hreplayed
  have hidentity : checkIdentity scope full = .ok () := by
    cases scope with
    | none => rfl
    | some value => simp [checkIdentity, hscope value rfl, hid]
  subst hid
  constructor
  · rintro ⟨runtime, hruntime⟩
    obtain ⟨-, -, hruntime⟩ := except_bind_ok.mp hruntime
    obtain ⟨entries, hentries, hruntime⟩ := except_bind_ok.mp hruntime
    obtain ⟨loaded, hloaded, hruntime⟩ := except_bind_ok.mp hruntime
    obtain ⟨segments, hopened, -⟩ := except_bind_ok.mp hruntime
    obtain ⟨hdirectory, rfl⟩ := openSegments_ok.mp hentries
    cases (mapError_ok_iff.mp hloaded).symm.trans h.loaded
    exact ⟨hdirectory, hsegments.mp ⟨segments, hopened⟩⟩
  · rintro ⟨hdirectory, hlocated⟩
    obtain ⟨segments, hopened⟩ := hsegments.mpr hlocated
    refine ⟨.writable scope full segments mutable (some writer) checkpoint, ?_⟩
    refine except_bind_ok.mpr ⟨(), hidentity, ?_⟩
    refine except_bind_ok.mpr ⟨_, openSegments_ok.mpr ⟨hdirectory, rfl⟩, ?_⟩
    refine except_bind_ok.mpr ⟨checkpoint, mapError_ok_iff.mpr h.loaded, ?_⟩
    refine except_bind_ok.mpr ⟨segments, hopened, ?_⟩
    refine except_bind_ok.mpr ⟨(writer, replayed), hwal, ?_⟩
    exact except_bind_ok.mpr ⟨mutable, hmutable, rfl⟩

theorem config_of_loadRuntime {runtime : CollectionRuntime}
    (h : files.loadRuntime scope full = .ok runtime) : runtime.config = some full := by
  obtain ⟨-, -, h⟩ := except_bind_ok.mp h
  obtain ⟨entries, -, h⟩ := except_bind_ok.mp h
  obtain ⟨loaded, -, h⟩ := except_bind_ok.mp h
  obtain ⟨segments, -, h⟩ := except_bind_ok.mp h
  obtain ⟨⟨writer, replayed⟩, -, h⟩ := except_bind_ok.mp h
  obtain ⟨mutable, -, h⟩ := except_bind_ok.mp h
  cases h
  rfl

/-- Verified files are loaded exactly when the two sets of checks agree on them. -/
theorem loads_of_verified (h : Verified id files config checkpoint)
    (hscope : ∀ value, scope = some value → value.collectionId = id) :
    files.Loads id scope ↔ files.Loadable := by
  obtain ⟨persisted, hfile, hid, halike, hinto⟩ := intoDomain_of_verified h.metadata
  have hload : files.load scope = (persisted.intoDomain.mapError RecoveryError.metadata >>= fun full =>
      (files.loadRuntime scope full).mapError RecoveryError.runtime >>= fun runtime =>
        pure (some runtime)) := by
    rw [load, hfile]
  constructor
  · rintro ⟨runtime, -, hruntime, -, -⟩
    rw [hload] at hruntime
    obtain ⟨full, hfull, hruntime⟩ := except_bind_ok.mp hruntime
    obtain ⟨other, hother, -⟩ := except_bind_ok.mp hruntime
    have hdomain := mapError_ok_iff.mp hfull
    have hsame := halike full hdomain
    obtain ⟨hdirectory, hlocated⟩ := (loadRuntime_of_verified h hscope (hsame.id.trans hid)
      hsame).mp ⟨other, mapError_ok_iff.mp hother⟩
    refine ⟨fun other hdecoded => ?_, hdirectory, fun value hvalue => ?_⟩
    · cases hfile.symm.trans hdecoded
      exact hinto.mp ⟨full, hdomain⟩
    · cases h.loaded.symm.trans hvalue
      exact hlocated value rfl
  · rintro ⟨hingestion, hdirectory, hlocated⟩
    obtain ⟨full, hfull⟩ := hinto.mpr (hingestion persisted hfile)
    have hsame := halike full hfull
    obtain ⟨runtime, hruntime⟩ := (loadRuntime_of_verified h hscope (hsame.id.trans hid) hsame).mpr
      ⟨hdirectory, fun value hvalue => hlocated value (by rw [h.loaded, hvalue])⟩
    refine ⟨runtime, full, ?_, config_of_loadRuntime hruntime, hsame.id.trans hid⟩
    rw [hload, hfull]
    show ((files.loadRuntime scope full).mapError RecoveryError.runtime >>= _) = _
    rw [hruntime]
    rfl

end Loading

end CollectionFiles

/-! ### Verified data directories -/

namespace DataDirectory

variable {F : Type}

/-- Recovery of the server succeeds with the collection loaded. -/
def Loads (directory : DataDirectory F) : Prop :=
  ∃ runtime config, directory.recover = .ok (some runtime) ∧ runtime.config = some config ∧
    config.id = directory.collectionId

/-- The verified directories that recovery loads: the two sets of checks agree on the files,
and an unscoped directory that the catalog binds to a project can be moved there. -/
structure Loadable (directory : DataDirectory F) : Prop where
  files : ∀ files, directory.namespaced = some files ∨ directory.legacy = some files →
    files.Loadable
  moved : ∀ project files, directory.project = some project → directory.namespaced = none →
    directory.legacy = some files → project = .defaultProject ∧
      files.manifest.validateOrInitialize (directory.scopeOf project) = .ok ()

variable {directory : DataDirectory F} {files : CollectionFiles F} {scope : Option DataPlaneScope}

/-- With one target, recovery is what loading it comes to. -/
theorem loads_of_targets (h : directory.recoveryTargets = .ok [(files, scope)]) :
    directory.Loads ↔ files.Loads directory.collectionId scope := by
  have hrecover : directory.recover = (files.load scope >>= fun loaded =>
      .ok ([loaded].filterMap id).getLast?) := by
    rw [recover, h, except_ok_bind, List.mapM_cons, List.mapM_nil]
    cases files.load scope <;> rfl
  have hloaded : ∀ runtime, directory.recover = .ok (some runtime) ↔
      files.load scope = .ok (some runtime) := by
    intro runtime
    rw [hrecover]
    cases files.load scope with
    | error error => simp [bind, Except.bind]
    | ok loaded =>
      cases loaded with
      | none => simp [bind, Except.bind]
      | some other => simp [bind, Except.bind]
  unfold Loads CollectionFiles.Loads
  simp only [hloaded]

section Verified

open IntegrityVerifier

variable [DecidableEq F] {S : Type} [ScoreArith S] {fingerprint : HnswIdentity → F}
  {report : IntegrityReport}

/-- A data directory with a sound report is loaded exactly when verifier and loader agree on
what it holds. -/
theorem loads_iff_loadable (hreport : verifyCollection S fingerprint directory = .ok report)
    (hok : report.authoritativeOk = true) : directory.Loads ↔ directory.Loadable := by
  obtain ⟨id, project, namespaced, legacy, once⟩ := directory
  have hfiles (files : CollectionFiles F) (scope : Option DataPlaneScope)
      (hverify : report = verifyFiles S fingerprint id files)
      (hscope : ∀ value, scope = some value → value.collectionId = id) :
      files.Loads id scope ↔ files.Loadable := by
    subst hverify
    obtain ⟨config, checkpoint, hverified⟩ := authoritativeOk_verifyFiles.mp hok
    exact CollectionFiles.loads_of_verified hverified hscope
  cases project with
  | none =>
    cases legacy with
    | none => cases namespaced <;> cases hreport
    | some files =>
      have hnone : namespaced = none := once.resolve_right nofun
      subst hnone
      cases hreport
      have htargets : recoveryTargets ⟨id, none, none, some files, once⟩ = .ok [(files, none)] := rfl
      have hunscoped : ∀ value : DataPlaneScope, none = some value → value.collectionId = id := by
        intro value hvalue
        cases hvalue
      rw [loads_of_targets htargets, hfiles files none rfl hunscoped]
      refine ⟨fun h => ⟨fun other hother => ?_, fun project _ hproject => ?_⟩,
        fun h => h.files files (.inr rfl)⟩
      · rcases hother with hother | hother
        · cases hother
        · rwa [← Option.some.inj hother]
      · cases hproject
  | some project =>
    have hscope : ∀ value, some (⟨project, id⟩ : DataPlaneScope) = some value →
        value.collectionId = id := by
      intro value hvalue
      rw [← Option.some.inj hvalue]
    cases namespaced with
    | some files =>
      have hnone : legacy = none := once.resolve_left nofun
      subst hnone
      obtain ⟨⟨⟩, hmanifest, hreport⟩ := except_bind_ok.mp hreport
      cases hreport
      have htargets : recoveryTargets ⟨id, some project, some files, none, once⟩ =
          .ok [(files, some ⟨project, id⟩)] :=
        except_bind_ok.mpr ⟨(), mapError_ok_iff.mpr (mapError_ok_iff.mp hmanifest), rfl⟩
      rw [loads_of_targets htargets, hfiles files _ rfl hscope]
      refine ⟨fun h => ⟨fun other hother => ?_, fun _ _ _ hnamespaced => ?_⟩,
        fun h => h.files files (.inl rfl)⟩
      · rcases hother with hother | hother
        · rwa [← Option.some.inj hother]
        · cases hother
      · cases hnamespaced
    | none =>
      cases legacy with
      | none => cases hreport
      | some files =>
        have hverify : report = verifyFiles S fingerprint id files := by
          unfold verifyCollection at hreport
          dsimp only at hreport
          split at hreport
          · cases hreport
          · cases hreport
            rfl
        by_cases hmoved : project = .defaultProject ∧
            files.manifest.validateOrInitialize ⟨project, id⟩ = .ok ()
        · obtain ⟨hdefault, hmanifest⟩ := hmoved
          have htargets : recoveryTargets ⟨id, some project, none, some files, once⟩ =
              .ok [(files, some ⟨project, id⟩)] := by
            unfold recoveryTargets
            dsimp only
            rw [if_neg (not_not.mpr hdefault)]
            exact except_bind_ok.mpr ⟨(), mapError_ok_iff.mpr hmanifest, rfl⟩
          rw [loads_of_targets htargets, hfiles files _ hverify hscope]
          refine ⟨fun h => ⟨fun other hother => ?_, fun _ _ hproject _ hlegacy => ?_⟩,
            fun h => h.files files (.inr rfl)⟩
          · rcases hother with hother | hother
            · cases hother
            · rwa [← Option.some.inj hother]
          · rw [← Option.some.inj hproject, ← Option.some.inj hlegacy]
            exact ⟨hdefault, hmanifest⟩
        · refine ⟨fun h => ?_, fun h => absurd (h.moved project files rfl rfl rfl) hmoved⟩
          obtain ⟨runtime, -, hrecover, -, -⟩ := h
          obtain ⟨targets, htargets, -⟩ := except_bind_ok.mp hrecover
          unfold recoveryTargets at htargets
          dsimp only at htargets
          split at htargets
          · cases htargets
          · rename_i hdefault
            obtain ⟨⟨⟩, hmanifest, -⟩ := except_bind_ok.mp htargets
            exact absurd ⟨not_not.mp hdefault, mapError_ok_iff.mp hmanifest⟩ hmoved

end Verified

end DataDirectory

end Ketebe
