import Ketebe.CollectionFiles
import Ketebe.Runtime

/-!
The integrity report of a collection. The verifier decodes every file that is
the source of record and looks into it; what it finds in the derived indexes
never makes a collection corrupt, since they can be built again.
-/
namespace Ketebe

open Lib.ByteCodec

inductive IntegrityStatus where
  | healthy
  | degraded
  | corrupt
  deriving DecidableEq, Repr

inductive IntegrityClass where
  | authoritative
  | derived
  deriving DecidableEq, Repr

inductive IntegrityOutcome where
  | ok
  | warning
  | error
  deriving DecidableEq, Repr

structure IntegrityCheck where
  code : String
  ofClass : IntegrityClass
  outcome : IntegrityOutcome
  deriving DecidableEq, Repr

namespace IntegrityCheck

def passed (code : String) : IntegrityCheck := ⟨code, .authoritative, .ok⟩

def warns (code : String) : IntegrityCheck := ⟨code, .authoritative, .warning⟩

def fails (code : String) : IntegrityCheck := ⟨code, .authoritative, .error⟩

/-- The checks that the report of a sound collection cannot have. -/
def fatal (check : IntegrityCheck) : Bool :=
  check.ofClass = .authoritative && check.outcome = .error

def failsIf (condition : Prop) [Decidable condition] (code : String) : List IntegrityCheck :=
  if condition then [fails code] else []

/-- No check is fatal. -/
def Quiet (checks : List IntegrityCheck) : Prop := ∀ check ∈ checks, check.fatal = false

section Quiet

variable {checks others : List IntegrityCheck} {check : IntegrityCheck} {code : String}

@[simp] theorem quiet_nil : Quiet [] := nofun

@[simp] theorem quiet_cons : Quiet (check :: checks) ↔ check.fatal = false ∧ Quiet checks :=
  List.forall_mem_cons

@[simp] theorem quiet_append : Quiet (checks ++ others) ↔ Quiet checks ∧ Quiet others :=
  List.forall_mem_append

@[simp] theorem quiet_flatMap {α : Type} {elements : List α} {f : α → List IntegrityCheck} :
    Quiet (elements.flatMap f) ↔ ∀ element ∈ elements, Quiet (f element) :=
  List.forall_mem_flatMap

@[simp] theorem fatal_passed : (passed code).fatal = false := rfl

@[simp] theorem fatal_warns : (warns code).fatal = false := rfl

@[simp] theorem fatal_fails : (fails code).fatal = true := rfl

@[simp] theorem quiet_failsIf {condition : Prop} [Decidable condition] :
    Quiet (failsIf condition code) ↔ ¬condition := by
  unfold failsIf
  split
  · rename_i hholds
    simp [hholds]
  · rename_i hfails
    simp [hfails]

@[simp] theorem quiet_map_fails {α : Type} {elements : List α} :
    Quiet (elements.map fun _ => fails code) ↔ elements = [] := by
  cases elements with
  | nil => simp
  | cons head rest => simp

@[simp] theorem quiet_map_warns {α : Type} {elements : List α} :
    Quiet (elements.map fun _ => warns code) := by
  intro check hcheck
  obtain ⟨-, -, rfl⟩ := List.mem_map.mp hcheck
  rfl

end Quiet

end IntegrityCheck

structure IntegrityReport where
  collectionId : CollectionId
  status : IntegrityStatus
  authoritativeOk : Bool
  derivedOk : Bool
  checks : List IntegrityCheck

namespace IntegrityReport

def new (collectionId : CollectionId) : IntegrityReport := ⟨collectionId, .healthy, true, true, []⟩

def degrade (report : IntegrityReport) : IntegrityReport :=
  if report.status = .healthy then { report with status := .degraded } else report

/-- What a check does to the verdict of the report. -/
def judge (report : IntegrityReport) (check : IntegrityCheck) : IntegrityReport :=
  if check.outcome = .ok then report
  else match check.ofClass with
    | .authoritative =>
        if check.outcome = .error then
          { report with authoritativeOk := false, status := .corrupt }
        else report.degrade
    | .derived => { report with derivedOk := false }.degrade

def push (report : IntegrityReport) (check : IntegrityCheck) : IntegrityReport :=
  { report.judge check with checks := report.checks ++ [check] }

def pushAll (report : IntegrityReport) (checks : List IntegrityCheck) : IntegrityReport :=
  checks.foldl push report

variable {report : IntegrityReport}

@[simp] theorem authoritativeOk_degrade :
    report.degrade.authoritativeOk = report.authoritativeOk := by
  unfold degrade
  split <;> rfl

theorem authoritativeOk_push (check : IntegrityCheck) :
    (report.push check).authoritativeOk = (report.authoritativeOk && !check.fatal) := by
  obtain ⟨code, ofClass, outcome⟩ := check
  cases ofClass with
  | authoritative =>
    cases outcome with
    | ok => simp [push, judge, IntegrityCheck.fatal]
    | warning => simp [push, judge, IntegrityCheck.fatal]
    | error => simp [push, judge, IntegrityCheck.fatal]
  | derived =>
    cases outcome with
    | ok => simp [push, judge, IntegrityCheck.fatal]
    | warning => simp [push, judge, IntegrityCheck.fatal]
    | error => simp [push, judge, IntegrityCheck.fatal]

/-- A report stands for the source of record as long as no check of it is fatal. -/
theorem authoritativeOk_pushAll {checks : List IntegrityCheck} :
    (report.pushAll checks).authoritativeOk = true ↔
      report.authoritativeOk = true ∧ IntegrityCheck.Quiet checks := by
  induction checks generalizing report with
  | nil => simp [pushAll]
  | cons check rest ih =>
    rw [pushAll, List.foldl_cons, ← pushAll, ih, authoritativeOk_push]
    simp [and_assoc]

end IntegrityReport

inductive IntegrityError where
  | collectionNotFound (collectionId : CollectionId)
  | scope (error : NamespaceError)

namespace IntegrityVerifier

open IntegrityCheck

/-- The code of the check that fails, or the configuration to verify against. -/
def verifyMetadata (collectionId : CollectionId) :
    MetadataFile → Except String CollectionConfig
  | .missing => .error "collection_metadata"
  | .unreadable => .error "collection_metadata"
  | .malformed => .error "collection_metadata"
  | .decoded persisted =>
      if ¬(1 ≤ persisted.version ∧ persisted.version ≤ 6) then
        .error "collection_metadata_version"
      else if persisted.id ≠ collectionId.asStr then .error "collection_metadata_identity"
      else do
        let lexicalFields ← (persisted.lexicalFields.mapM FieldPath.new).mapError fun _ =>
          "collection_metadata_schema"
        let config ← (CollectionConfig.new collectionId persisted.dimension
          persisted.metric).mapError fun _ => "collection_metadata_schema"
        pure ((config.withLexicalFields lexicalFields).withLexicalAnalyzer
          persisted.lexicalAnalyzer)

section Segments

variable (collectionId : CollectionId) (config : CollectionConfig) (checkpoint : Option Checkpoint)

/-- The names against the ids that the checkpoint refers to. -/
def verifyReferences (entries : List NamedEntry) : List IntegrityCheck :=
  match checkpoint with
  | none => []
  | some checkpoint =>
      (checkpoint.segments.filter (· ∉ SegmentsPath.diskIds entries)).map (fun _ =>
        fails "missing_segment_reference") ++
      ((SegmentsPath.diskIds entries).filter (· ∉ checkpoint.segments)).map fun _ =>
        warns "orphan_segment"

def verifyRecord (segment : Segment) (record : Record) : List IntegrityCheck :=
  failsIf (record.sequenceNumber < segment.minSequence ∨
    segment.maxSequence < record.sequenceNumber) "segment_record_sequence" ++
  failsIf (config.validateRecord record ≠ .ok ()) "segment_record_domain"

def verifyTombstone (segment : Segment) (tombstone : Tombstone) : List IntegrityCheck :=
  failsIf (tombstone.sequenceNumber < segment.minSequence ∨
    segment.maxSequence < tombstone.sequenceNumber) "segment_tombstone_sequence"

/-- Whether the checkpoint refers to the id that the segment itself holds. -/
def referenced (segment : Segment) : Bool :=
  checkpoint.all fun checkpoint => segment.id ∈ checkpoint.segments

def verifySegment (segment : Segment) : List IntegrityCheck :=
  if segment.collectionId ≠ collectionId then [fails "segment_collection"]
  else if ¬referenced checkpoint segment then []
  else
    failsIf (checkpoint.any fun checkpoint => checkpoint.sequenceNumber < segment.maxSequence)
      "segment_checkpoint_sequence" ++
    segment.records.flatMap (verifyRecord config segment) ++
    segment.tombstones.flatMap (verifyTombstone segment)

/-- The checks of the segments, and the ones to compare the indexes with. -/
def verifySegments (path : SegmentsPath) : List IntegrityCheck × Option (List Segment) :=
  match path with
  | .directory entries =>
      match SegmentsPath.discover entries with
      | .error _ => (verifyReferences checkpoint entries ++ [fails "segment_decode"], none)
      | .ok discovered =>
          (verifyReferences checkpoint entries ++
            discovered.flatMap (verifySegment collectionId config checkpoint) ++
            [passed "segment_decode"],
          some (discovered.filter fun segment =>
            segment.collectionId = collectionId && referenced checkpoint segment))
  | _ =>
      if checkpoint.any fun checkpoint => checkpoint.segments ≠ [] then
        ([fails "segment_directory"], none)
      else ([passed "segment_directory"], some [])

def verifyMutation (mutation : WalMutation) : List IntegrityCheck :=
  failsIf (mutation.collectionId ≠ collectionId) "wal_collection" ++
  match mutation with
  | .upsert _ record => failsIf (config.validateRecord record ≠ .ok ()) "wal_record_domain"
  | .delete .. => []

def verifyWal (path : Option Bytes) : List IntegrityCheck :=
  match Wal.replayPath path with
  | .error _ => [fails "wal_decode"]
  | .ok replay =>
      (if 0 < replay.ignoredTailBytes then [warns "wal_truncated_tail"] else []) ++
      replay.entries.flatMap (verifyMutation collectionId config) ++ [passed "wal_decode"]

end Segments

/-! ### The derived indexes -/

section Derived

variable {F : Type} [DecidableEq F] (S : Type) [ScoreArith S] (fingerprint : HnswIdentity → F)

def verifyHnsw (checkpoint : Checkpoint) (config : CollectionConfig)
    (snapshot : Option (DecodedSnapshot F)) : IntegrityOutcome :=
  match DecodedSnapshot.load S fingerprint ⟨checkpoint, config.distanceMetric, .default⟩ snapshot with
  | .ok (.loaded _) => .ok
  | .ok .missing => .warning
  | .ok .stale => .warning
  | .error _ => .error

def verifyLexical (checkpoint : Checkpoint) (config : CollectionConfig) (segments : List Segment)
    (store : LexicalIndexStore) : IntegrityOutcome :=
  if config.lexicalFields = [] then .ok
  else match store.load checkpoint config.lexicalFields config.lexicalAnalyzer segments with
    | .ok (.loaded _) => .ok
    | .ok .missing => .warning
    | .ok .stale => .warning
    | .error _ => .error

def verifyDerived (files : CollectionFiles F) (config : CollectionConfig)
    (checkpoint : Option Checkpoint) (segments : Option (List Segment)) : List IntegrityCheck :=
  match checkpoint, segments with
  | some checkpoint, some segments =>
      [⟨"hnsw_compatibility", .derived, verifyHnsw S fingerprint checkpoint config files.hnsw⟩,
        ⟨"lexical_compatibility", .derived,
          verifyLexical checkpoint config segments files.lexical⟩]
  | _, _ => [⟨"derived_verification", .derived, .warning⟩]

theorem quiet_verifyDerived {files : CollectionFiles F} {config : CollectionConfig}
    {checkpoint : Option Checkpoint} {segments : Option (List Segment)} :
    Quiet (verifyDerived S fingerprint files config checkpoint segments) := by
  intro check hcheck
  unfold verifyDerived at hcheck
  split at hcheck
  · rcases List.mem_pair.mp hcheck with rfl | rfl
    · rfl
    · rfl
  · rw [List.mem_singleton.mp hcheck]
    rfl

/-! ### The collection -/

/-- The checkpoint as the later checks see it, with the checks of its own file. -/
def verifyCheckpoint (collectionId : CollectionId)
    (file : Except CheckpointError (Option Checkpoint)) :
    List IntegrityCheck × Option Checkpoint :=
  match file with
  | .error _ => ([fails "checkpoint_decode"], none)
  | .ok checkpoint =>
      (passed "checkpoint_decode" ::
        failsIf (checkpoint.any fun checkpoint => checkpoint.collectionId ≠ collectionId)
          "checkpoint_collection", checkpoint)

def verifyFiles (collectionId : CollectionId) (files : CollectionFiles F) : IntegrityReport :=
  match verifyMetadata collectionId files.metadata with
  | .error code => (IntegrityReport.new collectionId).push (fails code)
  | .ok config =>
      let (checkpointChecks, checkpoint) := verifyCheckpoint collectionId files.checkpoint
      let (segmentChecks, segments) := verifySegments collectionId config checkpoint files.segments
      (IntegrityReport.new collectionId).pushAll (passed "collection_metadata" ::
        (checkpointChecks ++ segmentChecks ++ verifyWal collectionId config files.wal ++
          verifyDerived S fingerprint files config checkpoint segments))

/-- Verifies the collection where it is. An unscoped directory stands for a namespace that
the catalog promises, unless the id is one of those that only namespaces have. -/
def verifyCollection (directory : DataDirectory F) : Except IntegrityError IntegrityReport :=
  match directory.project, directory.namespaced, directory.legacy with
  | some project, some files, _ => do
      (files.manifest.validateExisting ⟨project, directory.collectionId⟩).mapError .scope
      pure (verifyFiles S fingerprint directory.collectionId files)
  | some _, none, some files =>
      if directory.collectionId.asStr.startsWith "c_" then .error (.scope .missingNamespace)
      else .ok (verifyFiles S fingerprint directory.collectionId files)
  | some _, none, none => .error (.scope .missingNamespace)
  | none, _, some files => .ok (verifyFiles S fingerprint directory.collectionId files)
  | none, _, none => .error (.collectionNotFound directory.collectionId)

end Derived

end IntegrityVerifier

/-! ### What a sound report says -/

/-- The mutation belongs to the collection and fits its configuration. -/
structure WalMutation.Accepted (id : CollectionId) (config : CollectionConfig)
    (mutation : WalMutation) : Prop where
  collection : mutation.collectionId = id
  valid : AppState.checkMutation config mutation = .ok ()

/-- The numbers of the segment lie between its bounds, and its records are valid. -/
structure Segment.Valid (config : CollectionConfig) (segment : Segment) : Prop where
  bounded : ∀ v ∈ segment.versions, segment.minSequence ≤ v.sequence ∧
    v.sequence ≤ segment.maxSequence
  records : ∀ record ∈ segment.records, config.validateRecord record = .ok ()

namespace IntegrityVerifier

open IntegrityCheck

section Specs

variable {collectionId : CollectionId} {config : CollectionConfig} {checkpoint : Option Checkpoint}

theorem quiet_verifyMutation {mutation : WalMutation} :
    Quiet (verifyMutation collectionId config mutation) ↔ mutation.Accepted collectionId config := by
  cases mutation with
  | upsert id record =>
    simp only [verifyMutation, quiet_append, quiet_failsIf, not_not]
    constructor
    · rintro ⟨hcollection, hvalid⟩
      exact ⟨hcollection, mapError_ok_iff.mpr hvalid⟩
    · rintro ⟨hcollection, hvalid⟩
      exact ⟨hcollection, mapError_ok_iff.mp hvalid⟩
  | delete id recordId sequence =>
    simp only [verifyMutation, List.append_nil, quiet_failsIf, not_not]
    exact ⟨fun hcollection => ⟨hcollection, rfl⟩, fun h => h.collection⟩

theorem quiet_verifyWal {path : Option Bytes} :
    Quiet (verifyWal collectionId config path) ↔ ∃ replay, Wal.replayPath path = .ok replay ∧
      ∀ mutation ∈ replay.entries, mutation.Accepted collectionId config := by
  unfold verifyWal
  cases hreplay : Wal.replayPath path with
  | error error => simp
  | ok replay =>
    have htail : Quiet (if 0 < replay.ignoredTailBytes then [warns "wal_truncated_tail"] else []) := by
      split
      · simp
      · exact quiet_nil
    simp [quiet_verifyMutation, htail]

theorem quiet_verifyRecord {segment : Segment} {record : Record} :
    Quiet (verifyRecord config segment record) ↔
      (segment.minSequence ≤ record.sequenceNumber ∧ record.sequenceNumber ≤ segment.maxSequence) ∧
        config.validateRecord record = .ok () := by
  simp [verifyRecord, not_or]

theorem quiet_verifyTombstone {segment : Segment} {tombstone : Tombstone} :
    Quiet (verifyTombstone segment tombstone) ↔
      segment.minSequence ≤ tombstone.sequenceNumber ∧
        tombstone.sequenceNumber ≤ segment.maxSequence := by
  simp [verifyTombstone, not_or]

/-- A segment passes if it is one of the collection and, where the checkpoint refers to
it, valid and no newer than the checkpoint. -/
theorem quiet_verifySegment {segment : Segment} :
    Quiet (verifySegment collectionId config checkpoint segment) ↔
      segment.collectionId = collectionId ∧ (referenced checkpoint segment = true →
        segment.Valid config ∧ ∀ value, checkpoint = some value →
          segment.maxSequence ≤ value.sequenceNumber) := by
  unfold verifySegment
  by_cases hcollection : segment.collectionId = collectionId
  · rw [if_neg (not_not.mpr hcollection)]
    by_cases hreferenced : referenced checkpoint segment = true
    · rw [if_neg (not_not.mpr hreferenced)]
      have hvalid : segment.Valid config ↔ (∀ record ∈ segment.records,
          Quiet (verifyRecord config segment record)) ∧
            ∀ tombstone ∈ segment.tombstones, Quiet (verifyTombstone segment tombstone) := by
        simp only [quiet_verifyRecord, quiet_verifyTombstone]
        constructor
        · rintro ⟨hbounded, hrecords⟩
          refine ⟨fun record hrecord => ⟨hbounded record.version ?_, hrecords record hrecord⟩,
            fun tombstone htombstone => hbounded tombstone.version ?_⟩
          · exact List.mem_append_left _ (List.mem_map_of_mem hrecord)
          · exact List.mem_append_right _ (List.mem_map_of_mem htombstone)
        · rintro ⟨hrecords, htombstones⟩
          refine ⟨fun v hv => ?_, fun record hrecord => (hrecords record hrecord).2⟩
          rcases List.mem_append.mp hv with hmem | hmem
          · obtain ⟨record, hrecord, rfl⟩ := List.mem_map.mp hmem
            exact (hrecords record hrecord).1
          · obtain ⟨tombstone, htombstone, rfl⟩ := List.mem_map.mp hmem
            exact htombstones tombstone htombstone
      have hsequence : ¬(checkpoint.any fun checkpoint =>
          decide (checkpoint.sequenceNumber < segment.maxSequence)) = true ↔
            ∀ value, checkpoint = some value → segment.maxSequence ≤ value.sequenceNumber := by
        cases checkpoint with
        | none => simp
        | some value => simp
      simp only [quiet_append, quiet_failsIf, quiet_flatMap, hsequence, hcollection, hreferenced,
        true_and, forall_const, hvalid]
      exact ⟨fun ⟨⟨hle, hrecords⟩, htombstones⟩ => ⟨⟨hrecords, htombstones⟩, hle⟩,
        fun ⟨⟨hrecords, htombstones⟩, hle⟩ => ⟨⟨hle, hrecords⟩, htombstones⟩⟩
    · rw [if_pos hreferenced]
      exact ⟨fun _ => ⟨hcollection, fun h => absurd h hreferenced⟩, fun _ => quiet_nil⟩
  · rw [if_pos hcollection]
    simp [hcollection]

theorem quiet_verifyReferences {entries : List NamedEntry} :
    Quiet (verifyReferences checkpoint entries) ↔ ∀ value, checkpoint = some value →
      ∀ id ∈ value.segments, id ∈ SegmentsPath.diskIds entries := by
  cases checkpoint with
  | none => simp [verifyReferences]
  | some value =>
    simp only [verifyReferences, quiet_append, quiet_map_fails, quiet_map_warns, and_true,
      List.filter_eq_nil_iff, decide_eq_true_eq, not_not, Option.some.injEq, forall_eq']

/-- The segments pass if every id that the checkpoint refers to is among the names, every
segment file can be decoded, and every segment passes. -/
theorem quiet_verifySegments {path : SegmentsPath} :
    Quiet (verifySegments collectionId config checkpoint path).1 ↔
      (∀ value, checkpoint = some value → ∀ id ∈ value.segments,
        id ∈ SegmentsPath.diskIds path.entries) ∧
      ∃ discovered, SegmentsPath.discover path.entries = .ok discovered ∧
        ∀ segment ∈ discovered, Quiet (verifySegment collectionId config checkpoint segment) := by
  have habsent : Quiet (if checkpoint.any fun checkpoint => checkpoint.segments ≠ [] then
      (([fails "segment_directory"], none) : List IntegrityCheck × Option (List Segment))
      else ([passed "segment_directory"], some [])).1 ↔
        (∀ value, checkpoint = some value → ∀ id ∈ value.segments,
          id ∈ SegmentsPath.diskIds []) ∧
        ∃ discovered, SegmentsPath.discover [] = .ok discovered ∧
          ∀ segment ∈ discovered, Quiet (verifySegment collectionId config checkpoint segment) := by
    have hnone : ∃ discovered, SegmentsPath.discover [] = .ok discovered ∧
        ∀ segment ∈ discovered, Quiet (verifySegment collectionId config checkpoint segment) :=
      ⟨[], SegmentsPath.discover_nil, nofun⟩
    cases checkpoint with
    | none => simp [hnone]
    | some value =>
      by_cases hempty : value.segments = []
      · simp [hempty, hnone]
      · obtain ⟨id, hid⟩ := List.exists_mem_of_ne_nil _ hempty
        have hmissing : ¬∀ id ∈ value.segments, id ∈ SegmentsPath.diskIds [] := fun hall => by
          obtain ⟨entry, hentry, -⟩ := SegmentsPath.mem_diskIds.mp (hall id hid)
          cases hentry
        simp [hempty, hmissing]
  cases path with
  | missing => exact habsent
  | file => exact habsent
  | directory entries =>
    cases hdiscover : SegmentsPath.discover entries with
    | error error => simp [verifySegments, SegmentsPath.entries, hdiscover]
    | ok discovered =>
      simp [verifySegments, SegmentsPath.entries, hdiscover, quiet_verifyReferences]

theorem quiet_verifyCheckpoint {file : Except CheckpointError (Option Checkpoint)} :
    Quiet (verifyCheckpoint collectionId file).1 ↔ file = .ok (verifyCheckpoint collectionId file).2 ∧
      ∀ value, (verifyCheckpoint collectionId file).2 = some value →
        value.collectionId = collectionId := by
  cases file with
  | error error => simp [verifyCheckpoint]
  | ok checkpoint =>
    cases checkpoint with
    | none => simp [verifyCheckpoint]
    | some value => simp [verifyCheckpoint]

end Specs

/-- What a report without a fatal check says about the files. -/
structure Verified (collectionId : CollectionId) {F : Type} (files : CollectionFiles F)
    (config : CollectionConfig) (checkpoint : Option Checkpoint) : Prop where
  metadata : verifyMetadata collectionId files.metadata = .ok config
  loaded : files.checkpoint = .ok checkpoint
  owner : ∀ value, checkpoint = some value → value.collectionId = collectionId
  segments : Quiet (verifySegments collectionId config checkpoint files.segments).1
  wal : Quiet (verifyWal collectionId config files.wal)

theorem authoritativeOk_verifyFiles {F : Type} [DecidableEq F] {S : Type} [ScoreArith S]
    {fingerprint : HnswIdentity → F} {collectionId : CollectionId} {files : CollectionFiles F} :
    (verifyFiles S fingerprint collectionId files).authoritativeOk = true ↔
      ∃ config checkpoint, Verified collectionId files config checkpoint := by
  unfold verifyFiles
  cases hmetadata : verifyMetadata collectionId files.metadata with
  | error code =>
    simp only [IntegrityReport.authoritativeOk_push, fatal_fails, Bool.not_true, Bool.and_false,
      Bool.false_eq_true, false_iff, not_exists]
    intro config checkpoint hverified
    cases hmetadata.symm.trans hverified.metadata
  | ok config =>
    have hnew : (IntegrityReport.new collectionId).authoritativeOk = true := rfl
    simp only [IntegrityReport.authoritativeOk_pushAll, hnew, true_and, quiet_cons, quiet_append,
      fatal_passed, quiet_verifyDerived, and_true, quiet_verifyCheckpoint]
    constructor
    · rintro ⟨⟨⟨hfile, howner⟩, hsegments⟩, hwal⟩
      exact ⟨config, _, hmetadata, hfile, howner, hsegments, hwal⟩
    · rintro ⟨other, checkpoint, hother, hfile, howner, hsegments, hwal⟩
      cases hmetadata.symm.trans hother
      have hseen : (verifyCheckpoint collectionId files.checkpoint).2 = checkpoint := by
        rw [hfile]
        rfl
      rw [hseen]
      exact ⟨⟨⟨hfile, howner⟩, hsegments⟩, hwal⟩

end IntegrityVerifier

end Ketebe
