import Ketebe.CollectionRecovery
import Ketebe.CollectionSession
import Ketebe.StoreSoundness

/-!
Integrity reports of stores. Every store that can be reached without writing
behind a torn frame has a sound report and is loaded again; of any other data
directory with a sound report this can be told from what its files hold.
-/
namespace Ketebe

open Lib.ByteCodec IntegrityVerifier IntegrityCheck StoreStep

section Files

variable {F : Type}

/-- The directory of a collection as the server writes it. -/
def CollectionDir.toFiles (dir : CollectionDir F) (manifest : ManifestFile)
    (lexical : LexicalIndexStore) : CollectionFiles F where
  metadata := .decoded (.ofConfig dir.config)
  manifest := manifest
  checkpoint := .ok dir.checkpoint
  segments := .directory (dir.segments.files.map NamedEntry.ofSegment)
  wal := dir.wal
  hnsw := dir.hnsw
  lexical := lexical

/-- The data directory with the collection, in the namespace of its project if it has one. -/
def Store.dataDirectory (state : AppState F) (lexical : LexicalIndexStore) (store : Store F) :
    DataDirectory F :=
  match state.scope with
  | some scope => ⟨state.collectionId, some scope.projectId,
      some (store.dir.toFiles (.decoded (.fromScope ⟨scope.projectId, state.collectionId⟩)) lexical),
      none, .inr rfl⟩
  | none => ⟨state.collectionId, none, none, some (store.dir.toFiles .missing lexical), .inl rfl⟩

/-! ### Segments under their own names -/

section Named

variable {files : List Segment}

theorem entryAt_ofSegment {segment : Segment} (h : segment ∈ files) :
    ∃ found ∈ files, found.id = segment.id ∧
      SegmentsPath.entryAt (files.map NamedEntry.ofSegment) segment.id = some (.file (.ok found)) := by
  have hexists : ∃ entry ∈ files.map NamedEntry.ofSegment,
      decide (entry.name = segmentKey segment.id) = true :=
    ⟨_, List.mem_map_of_mem h, decide_eq_true rfl⟩
  cases hfind : (files.map NamedEntry.ofSegment).find? fun entry =>
      decide (entry.name = segmentKey segment.id) with
  | none =>
    obtain ⟨entry, hentry, hname⟩ := hexists
    exact absurd hname (List.find?_eq_none.mp hfind entry hentry)
  | some entry =>
    have hnamed := List.find?_some hfind
    obtain ⟨found, hfound, rfl⟩ := List.mem_map.mp (List.mem_of_find?_eq_some hfind)
    have hname : segmentKey found.id = segmentKey segment.id := of_decide_eq_true hnamed
    refine ⟨found, hfound, segmentKey_injective hname, ?_⟩
    rw [SegmentsPath.entryAt, hfind]
    rfl

theorem discover_ofSegment (files : List Segment) : ∃ discovered,
    SegmentsPath.discover (files.map NamedEntry.ofSegment) = .ok discovered ∧
      ∀ segment ∈ discovered, segment ∈ files := by
  have hall : ∃ decoded, SegmentsPath.decodeAll (files.map NamedEntry.ofSegment) = .ok decoded := by
    refine except_mapM_exists.mpr fun content hcontent => ?_
    obtain ⟨entry, hentry, hkept⟩ := List.mem_filterMap.mp hcontent
    obtain ⟨segment, -, rfl⟩ := List.mem_map.mp (List.mem_mergeSort.mp hentry)
    rw [NamedEntry.segmentContent_ofSegment] at hkept
    exact ⟨segment, (Option.some.inj hkept).symm⟩
  obtain ⟨decoded, hdecoded⟩ := hall
  have hdiscover : SegmentsPath.discover (files.map NamedEntry.ofSegment) =
      .ok (decoded.mergeSort SegmentStore.precedes) := by
    rw [SegmentsPath.discover, hdecoded]
    rfl
  refine ⟨_, hdiscover, fun segment hsegment => ?_⟩
  obtain ⟨entry, hentry, hcontent⟩ := (SegmentsPath.mem_discover hdiscover).2 segment hsegment
  obtain ⟨found, hfound, rfl⟩ := List.mem_map.mp hentry
  rw [NamedEntry.segmentContent_ofSegment] at hcontent
  rwa [← Except.ok.inj (Option.some.inj hcontent)]

end Named

/-! ### Sound stores -/

variable {state : AppState F} {store : Store F} {replay : Wal.ReplayResult}
  {lexical : LexicalIndexStore} {manifest : ManifestFile}

/-- What the server writes as metadata passes, whatever the ingestion configuration. -/
theorem verifyMetadata_ofConfig (config : CollectionConfig) : ∃ verified,
    verifyMetadata config.id (.decoded (.ofConfig config)) = .ok verified ∧
      verified.Alike config := by
  obtain ⟨fresh, hfresh⟩ : ∃ fresh, CollectionConfig.new config.id config.dimension
      config.distanceMetric = .ok fresh := ⟨_, dif_pos config.dimension_pos⟩
  have hshape : fresh.Alike config := by
    rw [CollectionConfig.new, dif_pos config.dimension_pos] at hfresh
    cases hfresh
    exact ⟨rfl, rfl⟩
  have hfields : (config.lexicalFields.map FieldPath.segments).mapM FieldPath.new =
      .ok config.lexicalFields := by
    rw [except_mapM_ok, List.forall₂_map_left_iff, List.forall₂_same]
    exact fun path _ => FieldPath.new_segments path
  have hversion : 1 ≤ (PersistedCollection.ofConfig config).version ∧
      (PersistedCollection.ofConfig config).version ≤ 6 := ⟨Nat.le_add_left 1 5, Nat.le_refl 6⟩
  have hid : (PersistedCollection.ofConfig config).id = config.id.asStr := rfl
  refine ⟨(fresh.withLexicalFields config.lexicalFields).withLexicalAnalyzer config.lexicalAnalyzer,
    ?_, (CollectionConfig.alike_withSchema ..).trans hshape⟩
  rw [verifyMetadata, if_neg (not_not.mpr hversion), if_neg (not_not.mpr hid)]
  refine except_bind_ok.mpr ⟨config.lexicalFields, mapError_ok_iff.mpr hfields, ?_⟩
  exact except_bind_ok.mpr ⟨fresh, mapError_ok_iff.mpr hfresh, rfl⟩

/-- The files of a sound store pass every check on the source of record. -/
theorem verified_of_sound (h : Sound state store replay) : ∃ config,
    Verified state.collectionId (store.dir.toFiles manifest lexical) config store.dir.checkpoint := by
  obtain ⟨config, hmetadata, halike⟩ := verifyMetadata_ofConfig store.dir.config
  rw [h.numbered.config] at hmetadata
  have hrecord : ∀ record, config.validateRecord record = store.dir.config.validateRecord record := by
    intro record
    simp only [CollectionConfig.validateRecord, CollectionConfig.validateVector, halike.dimension]
  refine ⟨config, hmetadata, rfl, fun checkpoint hcheckpoint =>
    (h.checkpoint checkpoint hcheckpoint).collection, ?_, ?_⟩
  · obtain ⟨discovered, hdiscover, hfiles⟩ := discover_ofSegment store.dir.segments.files
    refine quiet_verifySegments.mpr ⟨fun checkpoint hcheckpoint id hid => ?_, discovered, hdiscover,
      fun segment hsegment => ?_⟩
    · obtain ⟨segment, hsegment, rfl⟩ := (h.checkpoint checkpoint hcheckpoint).present id hid
      exact SegmentsPath.mem_diskIds.mpr ⟨_, List.mem_map_of_mem hsegment, segmentIdOf_key _⟩
    · have hfile := hfiles segment hsegment
      obtain ⟨hbounded, hrecords⟩ := h.valid segment hfile
      refine quiet_verifySegment.mpr ⟨(h.numbered.files segment hfile).collection,
        fun hreferenced => ⟨⟨hbounded, fun record hmem => ?_⟩, fun checkpoint hcheckpoint => ?_⟩⟩
      · rw [hrecord]
        exact hrecords record hmem
      · rw [hcheckpoint] at hreferenced
        exact (h.checkpoint checkpoint hcheckpoint).bounded segment hfile
          (of_decide_eq_true hreferenced)
  · refine quiet_verifyWal.mpr ⟨replay, h.replays, fun mutation hmutation => ?_⟩
    obtain ⟨hcollection, hvalid⟩ := h.log.accepted mutation hmutation
    exact ⟨hcollection, (halike.checkMutation mutation).trans hvalid⟩

/-! ### Reports of stores -/

section Reports

variable [DecidableEq F] (S : Type) [ScoreArith S]

/-- The verifier finds nothing wrong with the source of record. -/
def Store.ReportedSound (state : AppState F) (lexical : LexicalIndexStore) (store : Store F) : Prop :=
  ∃ report, verifyCollection S state.fingerprint (store.dataDirectory state lexical) = .ok report ∧
    report.authoritativeOk = true

variable {S}

theorem reported_of_sound (h : Sound state store replay) :
    store.ReportedSound S state lexical := by
  unfold Store.ReportedSound Store.dataDirectory
  cases hscope : state.scope with
  | none =>
    obtain ⟨config, hverified⟩ := verified_of_sound h
    exact ⟨_, rfl, authoritativeOk_verifyFiles.mpr ⟨config, _, hverified⟩⟩
  | some scope =>
    obtain ⟨config, hverified⟩ := verified_of_sound h
    refine ⟨verifyFiles S state.fingerprint state.collectionId _, ?_,
      authoritativeOk_verifyFiles.mpr ⟨config, _, hverified⟩⟩
    exact except_bind_ok.mpr ⟨(), mapError_ok_iff.mpr (ManifestFile.validateExisting_fromScope _), rfl⟩

omit [DecidableEq F] in
/-- Segments under their own names are where the loader looks for them. -/
theorem loadable_of_sound (h : Sound state store replay)
    (hcanonical : store.dir.config.Canonical state.collectionId) :
    (store.dataDirectory state lexical).Loadable := by
  have hfiles : ∀ manifest, (store.dir.toFiles manifest lexical).Loadable := by
    intro manifest
    refine ⟨fun persisted hpersisted => ?_, nofun, fun checkpoint hcheckpoint id hid => ?_⟩
    · cases hpersisted
      intro ingestion hingestion
      obtain ⟨original, horiginal, rfl⟩ := Option.map_eq_some_iff.mp hingestion
      exact ⟨original, PersistedIngestionConfig.intoDomain_ofConfig
        (hcanonical.checked original horiginal)⟩
    · have hstored : store.dir.checkpoint = some checkpoint := Except.ok.inj hcheckpoint
      obtain ⟨segment, hsegment, rfl⟩ := (h.checkpoint checkpoint hstored).present id hid
      obtain ⟨found, hfound, hsame, hentry⟩ := entryAt_ofSegment hsegment
      refine ⟨_, hentry, fun other hother hunreferenced => absurd ?_ hunreferenced⟩
      rwa [← Except.ok.inj hother, hsame]
  unfold Store.dataDirectory
  cases state.scope with
  | none =>
    refine ⟨fun files hmem => ?_, fun project _ hproject => ?_⟩
    · rcases hmem with hmem | hmem
      · cases hmem
      · rw [← Option.some.inj hmem]
        exact hfiles _
    · cases hproject
  | some scope =>
    refine ⟨fun files hmem => ?_, fun _ _ _ hnamespaced => ?_⟩
    · rcases hmem with hmem | hmem
      · rw [← Option.some.inj hmem]
        exact hfiles _
      · cases hmem
    · cases hnamespaced

theorem config_of_move {next : Store F} {mutations : List WalMutation}
    (hmove : Move S state store mutations next) : next.dir.config = store.dir.config := by
  cases hmove with
  | step hstep => cases hstep <;> rfl
  | tear => rfl

theorem config_of_run {next : Store F} (hrun : UndisturbedRun S state store next) :
    next.dir.config = store.dir.config := by
  induction hrun with
  | refl => rfl
  | tail _ hmove ih =>
    obtain ⟨mutations, hmove, -⟩ := hmove
    exact (config_of_move hmove).trans ih

variable {config : CollectionConfig}

/-- No store that is reached without writing behind a torn frame is reported corrupt. -/
theorem reported_of_undisturbed (hconfig : config.id = state.collectionId)
    (hrun : UndisturbedRun S state (.created state config) store) :
    store.ReportedSound S state lexical := by
  obtain ⟨replay, hsound⟩ := (Sound.created hconfig).run hrun
  exact reported_of_sound hsound

/-- The directory of a store that is reached like this is loaded again. -/
theorem loads_of_undisturbed (hcanonical : config.Canonical state.collectionId)
    (hrun : UndisturbedRun S state (.created state config) store) :
    (store.dataDirectory state lexical).Loads := by
  obtain ⟨replay, hsound⟩ := (Sound.created hcanonical.id_eq).run hrun
  have hreported : store.ReportedSound S state lexical := reported_of_sound hsound
  obtain ⟨report, hreport, hok⟩ := hreported
  refine (DataDirectory.loads_iff_loadable hreport hok).mpr (loadable_of_sound hsound ?_)
  rwa [config_of_run hrun]

variable (F S)

/-- Every data directory with a sound report is loaded. -/
def VerifiedLoads : Prop :=
  ∀ (fingerprint : HnswIdentity → F) (directory : DataDirectory F) (report : IntegrityReport),
    verifyCollection S fingerprint directory = .ok report → report.authoritativeOk = true →
      directory.Loads

/-- Every store that is reached has a sound report. -/
def ReachedSound : Prop :=
  ∀ (state : AppState F) (config : CollectionConfig) (lexical : LexicalIndexStore) (store : Store F),
    config.id = state.collectionId →
      Relation.ReflTransGen (fun before after => ∃ mutations, Move S state before mutations after)
        (.created state config) store → store.ReportedSound S state lexical

/-- Verification matches recovery where the two sets of checks agree, and in every run that
appends behind a clean log only. -/
theorem verification_matches_recovery :
    (∀ (fingerprint : HnswIdentity → F) (directory : DataDirectory F) (report : IntegrityReport),
      verifyCollection S fingerprint directory = .ok report → report.authoritativeOk = true →
        (directory.Loads ↔ directory.Loadable)) ∧
    ∀ (state : AppState F) (config : CollectionConfig) (lexical : LexicalIndexStore)
      (store : Store F), config.id = state.collectionId →
        UndisturbedRun S state (.created state config) store →
          store.ReportedSound S state lexical :=
  ⟨fun _ _ _ hreport hok => DataDirectory.loads_iff_loadable hreport hok,
    fun _ _ _ _ hconfig hrun => reported_of_undisturbed hconfig hrun⟩

end Reports

end Files

/-! ### Where the two differ -/

section Samples

def plainState : AppState Unit := ⟨⟨"a", CollectionId.validate_a⟩, none, 1, fun _ => ()⟩

def plainConfig : CollectionConfig :=
  ⟨plainState.collectionId, 1, Nat.one_pos, .dot, [], .default, none⟩

theorem verification_matches_recovery_plain : ∃ directory : DataDirectory Unit,
    directory = (Store.created plainState plainConfig).dataDirectory plainState ⟨∅⟩ ∧
      (directory.Loads ↔ directory.Loadable) ∧
      (Store.created plainState plainConfig).ReportedSound ℝ plainState ⟨∅⟩ := by
  obtain ⟨hloads, hreported⟩ := verification_matches_recovery Unit ℝ
  obtain ⟨report, hreport, hok⟩ := hreported plainState plainConfig ⟨∅⟩ _ rfl .refl
  exact ⟨_, rfl, hloads _ _ report hreport hok, report, hreport, hok⟩

/-- An ingestion configuration without a profile, which no collection is created with. -/
def blankProfile : PersistedCollection :=
  { PersistedCollection.ofConfig plainConfig with ingestion := some ⟨"", none, none, none, false⟩ }

def blankFiles : CollectionFiles Unit :=
  ⟨.decoded blankProfile, .missing, .ok none, .directory [], some [], none, ⟨∅⟩⟩

theorem not_verifiedLoads : ¬VerifiedLoads Unit ℝ := by
  intro h
  obtain ⟨config, hmetadata, -⟩ := verifyMetadata_ofConfig plainConfig
  have hverified : Verified plainState.collectionId blankFiles config none :=
    ⟨hmetadata, rfl, nofun,
      quiet_verifySegments.mpr ⟨nofun, [], SegmentsPath.discover_nil, nofun⟩,
      quiet_verifyWal.mpr ⟨⟨[], 0⟩, Wal.decodeFrames_nil none, nofun⟩⟩
  have hok : (verifyFiles ℝ plainState.fingerprint plainState.collectionId
      blankFiles).authoritativeOk = true := authoritativeOk_verifyFiles.mpr ⟨config, none, hverified⟩
  have hloads := h plainState.fingerprint ⟨plainState.collectionId, none, none, some blankFiles, .inl rfl⟩
    _ rfl hok
  have hloadable := (DataDirectory.loads_iff_loadable (S := ℝ) rfl hok).mp hloads
  obtain ⟨ingestion, hingestion⟩ := (hloadable.files blankFiles (.inr rfl)).ingestion blankProfile rfl
    _ rfl
  obtain ⟨chunking, -, hbuild⟩ := except_bind_ok.mp hingestion
  exact (CollectionIngestionConfig.build_ok_iff.mp (mapError_ok_iff.mp hbuild)).1 (by decide)

/-- The new collection after bytes reached its log of which the runtime does not know. -/
def writtenStore (file : Bytes) : Store Unit :=
  (Store.created plainState plainConfig).updateDir fun dir => { dir with wal := some file }

theorem appends_written {frame : Bytes} (hframe : Wal.encodeFrame (Wal.sampleDelete 1) = .ok frame)
    (file : Bytes) : Appends plainState (writtenStore file) plainConfig
      (.writable none plainConfig [] [] (some ⟨.durable, none⟩) none) [Wal.sampleDelete 1] 2
      ⟨file ++ frame, .durable, some 1⟩ := by
  have hencoded : Wal.encodeFrames [Wal.sampleDelete 1] = .ok (frame ++ []) :=
    Wal.encodeFrames_cons hframe rfl
  rw [List.append_nil] at hencoded
  have happend : (⟨file, .durable, none⟩ : Wal).appendBatch [Wal.sampleDelete 1] .done =
      (⟨file ++ frame, .durable, some 1⟩, .ok ()) :=
    Wal.appendBatch_done_iff.mpr ⟨⟨nofun, trivial⟩, frame, hencoded, rfl⟩
  refine ⟨rfl, rfl, ⟨[LogSession.samplePending], fun pending hpending => ?_, rfl⟩, ?_⟩
  · rw [List.mem_singleton.mp hpending]
    rfl
  · have hopen : (⟨.durable, none⟩ : WalWriter).openLog (writtenStore file).dir =
        ⟨file, .durable, none⟩ := rfl
    refine except_bind_ok.mpr ⟨(), rfl, ?_⟩
    rw [hopen, happend]
    rfl

/-- The first append fails after its bytes reached the file; the second reuses its sequence
number, and the verifier cannot decode the log. -/
theorem not_reachedSound : ¬ReachedSound Unit ℝ := by
  intro h
  obtain ⟨payload, hframe⟩ := Wal.encodeFrame_sampleDelete 1
  set frame := Wal.encodeHeader Wal.opDelete 1 payload ++ payload
  have hfails : Move ℝ plainState (Store.created plainState plainConfig) [Wal.sampleDelete 1]
      (writtenStore frame) := .tear (appends_written hframe []) List.nil_prefix List.prefix_rfl
  have hagain := Move.step (Step.append (S := ℝ) (appends_written hframe frame))
  have hrun := ((Relation.ReflTransGen.refl (r := fun before after => ∃ mutations,
    Move ℝ plainState before mutations after)).tail ⟨_, hfails⟩).tail ⟨_, hagain⟩
  obtain ⟨report, hreport, hok⟩ := h plainState plainConfig ⟨∅⟩ _ rfl hrun
  cases hreport
  obtain ⟨config, checkpoint, hverified⟩ := authoritativeOk_verifyFiles.mp hok
  obtain ⟨replay, hreplay, -⟩ := quiet_verifyWal.mp hverified.wal
  have hdecoded : Wal.decodeLog (frame ++ frame) = .ok replay := hreplay
  have hregression := Wal.decodeFrames_regression hframe (UInt64.le_refl 1) []
  rw [List.append_nil] at hregression
  have hfollows : Wal.Follows none (Wal.sampleDelete 1).sequenceNumber := nofun
  rw [Wal.decodeLog, Wal.decodeFrames_frame hframe hfollows] at hdecoded
  change (Wal.decodeFrames (some 1) frame).map _ = _ at hdecoded
  rw [hregression] at hdecoded
  cases hdecoded

theorem not_verification_matches_recovery : ¬VerifiedLoads Unit ℝ ∧ ¬ReachedSound Unit ℝ :=
  ⟨not_verifiedLoads, not_reachedSound⟩

end Samples

end Ketebe
