import Ketebe.LexicalBuildsSafety
import Ketebe.LexicalCorruption

/-!
Answers of the queries of a run. Where a query opens a file that is still there and
reads one that is complete, its answer is that of an index built for it. A build
that has been cancelled may remove the file between the two calls of a query.
-/
namespace Ketebe

open Lib.ByteCodec Lib.Durable Lib.Frame Lib.Runs LexicalSnapshotFile WriteService LexicalRuntime

/-! ### Recovery -/

section Recovered

variable [Unicode] [LexicalArith] {inputs : Set LexicalInputs}
  {known : Set (Checkpoint × List Segment)} {runtime : CollectionRuntime}
  {store recovered : LexicalIndexStore} {job : LexicalJob} {fingerprint : UInt64}
  {index : LexicalIndex}

/-- Every file holds the snapshot for its name. -/
def LexicalIndexStore.Sound (inputs : Set LexicalInputs) (known : Set (Checkpoint × List Segment))
    (store : LexicalIndexStore) : Prop :=
  ∀ fingerprint bytes, store.files[fingerprint]? = some bytes →
    StoredAs inputs known fingerprint bytes

omit [Unicode] [LexicalArith] in
theorem load_eq_readSnapshot {bytes : Bytes} (h : store.files[job.fingerprint]? = some bytes) :
    store.load job.checkpoint job.fields job.analyzer job.segments = job.readSnapshot bytes := by
  have hself : ((∅ : Std.ExtTreeMap UInt64 Bytes compare).insert job.fingerprint bytes)[
      job.fingerprint]? = some bytes := Std.ExtTreeMap.getElem?_insert_self
  unfold LexicalJob.fingerprint at h hself
  unfold LexicalJob.readSnapshot LexicalIndexStore.load LexicalJob.fingerprint
  dsimp only
  rw [h, hself]

theorem LexicalIndexStore.Sound.garbageCollect (h : store.Sound inputs known) (keep : UInt64) :
    (store.garbageCollect keep).Sound inputs known := by
  intro fingerprint bytes hbytes
  unfold LexicalIndexStore.garbageCollect at hbytes
  rw [Std.ExtTreeMap.getElem?_filter'] at hbytes
  exact h fingerprint bytes (Option.filter_eq_some_iff.mp hbytes).1

theorem LexicalIndexStore.Sound.restoreOrRebuild (h : store.Sound inputs known)
    (hseparates : Separates inputs known) (hjob : job.Known inputs known)
    (hrestore : restoreOrRebuildLexical store job.checkpoint job.fields job.analyzer job.segments =
      .ok ((fingerprint, index), recovered)) :
    StandsFor inputs known fingerprint index ∧ recovered.Sound inputs known := by
  unfold restoreOrRebuildLexical at hrestore
  cases hfile : store.files[job.fingerprint]? with
  | some bytes =>
    obtain ⟨built, hbuild, hread⟩ := hseparates.readSnapshot hjob (h _ _ hfile)
    rw [load_eq_readSnapshot hfile, hread, except_ok_bind] at hrestore
    cases hrestore
    exact ⟨⟨job, hjob, rfl, hbuild⟩, h.garbageCollect _⟩
  | none =>
    have hmissing : store.load job.checkpoint job.fields job.analyzer job.segments =
        .ok .missing := by
      unfold LexicalJob.fingerprint at hfile
      rw [LexicalIndexStore.load, hfile]
    rw [hmissing, except_ok_bind] at hrestore
    obtain ⟨⟨built, published⟩, hbuilt, hrestore⟩ := except_bind_ok.mp hrestore
    cases hrestore
    obtain ⟨hbuild, bytes, hfiles, hbytes⟩ := LexicalIndexStore.rebuildAndPublish_ok hfile hbuilt
    have hstands : StandsFor inputs known job.fingerprint index := ⟨job, hjob, rfl, hbuild⟩
    have hpublished : published.Sound inputs known := by
      intro other content hcontent
      rw [hfiles, Std.ExtTreeMap.getElem?_insert] at hcontent
      split at hcontent
      · rename_i heq
        cases hcontent
        rw [← Std.LawfulEqOrd.eq_of_compare heq]
        exact ⟨index, hstands, hbytes⟩
      · exact h other content hcontent
    exact ⟨hstands, hpublished.garbageCollect _⟩

theorem LexicalIndexStore.Sound.recoverLexical (h : store.Sound inputs known)
    (hseparates : Separates inputs known)
    (hjob : ∀ job, runtime.lexicalJob = some job → job.Known inputs known) :
    (∀ fingerprint index, (recoverLexical runtime store).1.lexicalIndexes[fingerprint]? =
      some index → StandsFor inputs known fingerprint index) ∧
      (recoverLexical runtime store).2.Sound inputs known := by
  have hempty : ∀ (fingerprint : UInt64) (index : LexicalIndex),
      (∅ : Std.ExtTreeMap UInt64 LexicalIndex compare)[fingerprint]? = some index →
        StandsFor inputs known fingerprint index := by
    intro fingerprint index hindex
    rw [Std.ExtTreeMap.getElem?_empty] at hindex
    cases hindex
  unfold LexicalRuntime.recoverLexical
  split
  · rename_i checkpoint hmutable hcheckpoint
    split
    · exact ⟨hempty, h⟩
    · rename_i hfields
      split
      · rename_i fingerprint index recovered hrestore
        have hlexical : runtime.lexicalJob = some ⟨checkpoint, runtime.segments,
            runtime.configuredLexicalFields, runtime.configuredLexicalAnalyzer⟩ :=
          congrArg (Option.map _) (indexedCheckpoint_configured hmutable hcheckpoint hfields)
        obtain ⟨hindex, hrecovered⟩ :=
          h.restoreOrRebuild hseparates (hjob _ hlexical) hrestore
        refine ⟨fun other found hfound => ?_, hrecovered⟩
        unfold installLexicalIndex at hfound
        rw [Std.ExtTreeMap.getElem?_insert] at hfound
        split at hfound
        · rename_i heq
          cases hfound
          rwa [← Std.LawfulEqOrd.eq_of_compare heq]
        · exact hempty other found hfound
      · exact ⟨hempty, h⟩
  · exact ⟨hempty, h⟩

end Recovered

namespace LexicalBuilds

variable {F S : Type} [Unicode] [LexicalArith] [ScoreArith S] {state : AppState F}
  {inputs : Set LexicalInputs} {known : Set (Checkpoint × List Segment)}
  {builds : LexicalBuilds F S}

theorem opened_sound {store : Store F} {runtime : CollectionRuntime} {files : LexicalIndexStore}
    (hinjective : inputs.InjOn LexicalInputs.fingerprint) (hhistory : History state known store)
    (hruntime : store.runtime = some runtime) (hfiles : files.Sound inputs known)
    (hinputs : ∀ job, runtime.lexicalJob = some job → job.inputs ∈ inputs) :
    Sound inputs known state (opened store runtime files : LexicalBuilds F S) := by
  obtain ⟨live, hlive, -, hcurrent⟩ := hhistory.current
  rw [hruntime] at hlive
  cases hlive
  have hjob : ∀ job, runtime.lexicalJob = some job → job.Known inputs known := by
    intro job hjob
    have hlive := LexicalJob.current_of_lexicalJob hjob
    refine ⟨hinputs job hjob, ?_⟩
    rw [hlive.segments]
    exact hcurrent job.checkpoint hlive.checkpoint
  obtain ⟨hcache, hrecovered⟩ :=
    hfiles.recoverLexical ⟨hinjective, hhistory.functional⟩ hjob
  refine ⟨hhistory, hcache, fun fingerprint file hfile => ?_, fun position job phase hphase => ?_,
    fun query hquery => (List.not_mem_nil hquery).elim⟩
  rcases hfile with hfile | hfile
  · have hsnapshot : ((recoverLexical runtime files).2.files.map fun fingerprint _ =>
        FileId.initial fingerprint)[fingerprint]? = some file := hfile
    rw [Std.ExtTreeMap.getElem?_map] at hsnapshot
    obtain ⟨bytes, hbytes, rfl⟩ := Option.map_eq_some_iff.mp hsnapshot
    refine ⟨⟨[], ?_, .inl rfl⟩, nofun⟩
    have hcontents : (LexicalDirectory.ofStore (recoverLexical runtime files).2).contents
        (.initial fingerprint) = bytes := by
      show ((recoverLexical runtime files).2.files[fingerprint]?).getD [] = bytes
      rw [hbytes, Option.getD_some]
    show StoredAs inputs known fingerprint
      ((LexicalDirectory.ofStore (recoverLexical runtime files).2).contents _ ++ [])
    rw [hcontents, List.append_nil]
    exact hrecovered fingerprint bytes hbytes
  · have htemporary : (∅ : Std.ExtTreeMap UInt64 FileId compare)[fingerprint]? = some file := hfile
    rw [Std.ExtTreeMap.getElem?_empty] at htemporary
    cases htemporary
  · have hnone : ([] : List BuildTask)[position]? = some (.running job phase) := hphase
    rw [List.getElem?_nil] at hnone
    cases hnone

/-! ### Runs -/

/-- Writers wait for the queries, so a new state meets only answered ones. -/
theorem Sound.advance {store : Store F} {cache : Std.ExtTreeMap UInt64 LexicalIndex compare}
    (h : Sound inputs known state builds) (hunlocked : builds.unlocked = true)
    (hadvances : Advances state builds.store store)
    (hcache : ∀ (fingerprint : UInt64) (index : LexicalIndex), cache[fingerprint]? = some index →
      builds.cache[fingerprint]? = some index) :
    ∃ known', Sound inputs known' state { builds with store := store, cache := cache } := by
  obtain ⟨known', hsubset, hhistory⟩ := h.history.advance hadvances
  refine ⟨known', hhistory, fun fingerprint index hindex => ?_, fun fingerprint file hfile => ?_,
    fun position job phase hphase => ?_, fun query hquery => ?_⟩
  · exact (h.cache fingerprint index (hcache fingerprint index hindex)).mono hsubset
  · exact (h.files fingerprint file hfile).mono hsubset
  · exact (h.tasks position job phase hphase).mono hsubset
  · refine ⟨(h.queries query hquery).answered, fun prepared job phase hphase => ?_⟩
    have hanswered := List.all_eq_true.mp hunlocked query hquery
    rw [hphase] at hanswered
    cases hanswered

theorem Sound.writeStep (h : Sound inputs known state builds) (hunlocked : builds.unlocked = true)
    (lockedSection : LockedSection) (faults : List Fault) :
    ∃ known', Sound inputs known' state (writeStep state builds lockedSection faults) := by
  have hensures : (unlessCrashed (Advances state builds.store)).holds
      ((WriteService.lockedSection state S lockedSection).run builds.store faults) :=
    lockedSection_ensures S builds.store lockedSection faults
  unfold LexicalBuilds.writeStep
  split
  · rename_i world hrun
    rw [hrun] at hensures
    refine h.advance hunlocked hensures fun fingerprint index hindex => ?_
    split at hindex
    · rw [Std.ExtTreeMap.getElem?_empty] at hindex
      cases hindex
    · exact hindex
  · rename_i error world hrun
    rw [hrun] at hensures
    exact h.advance hunlocked hensures fun fingerprint index hindex => hindex
  · exact ⟨known, h⟩

/-- The index of the collection is over one of these inputs. -/
def Covered (inputs : Set LexicalInputs) (builds : LexicalBuilds F S) : Prop :=
  ∀ job, builds.store.runtime.bind CollectionRuntime.lexicalJob = some job → job.inputs ∈ inputs

/-- A query that is about to open a file finds it, and one that is about to read a
file finds it complete. -/
structure Calm (inputs : Set LexicalInputs) (builds : LexicalBuilds F S) (event : Event) :
    Prop where
  covered : Covered inputs builds
  opens : ∀ position query prepared job, event = .lookup position →
    builds.queries[position]? = some query → query.phase = .searching prepared job .open →
    builds.directory.snapshots[job.fingerprint]? ≠ none
  reads : ∀ position query prepared job file, event = .lookup position →
    builds.queries[position]? = some query → query.phase = .searching prepared job (.read file) →
    builds.Complete file

theorem Sound.step {event : Event} (h : Sound inputs known state builds)
    (hinjective : inputs.InjOn LexicalInputs.fingerprint) (hcalm : Calm inputs builds event) :
    ∃ known', Sound inputs known' state (step state builds event) := by
  cases event with
  | write lockedSection faults =>
    unfold LexicalBuilds.step
    dsimp only
    split
    · exact h.writeStep ‹_› lockedSection faults
    · exact ⟨known, h⟩
  | cancel => exact ⟨known, h.history, h.cache, h.files, h.tasks, h.queries⟩
  | drain => exact ⟨known, h.history, h.cache, h.files, h.tasks, h.queries⟩
  | schedule =>
    unfold LexicalBuilds.step
    dsimp only
    split
    · exact ⟨known, h⟩
    · have hcontinues := continues_append builds.tasks .scheduling
      refine ⟨known, h.history, h.cache, fun fingerprint file hfile => ?_,
        fun position job phase hphase => ?_, fun query hquery => ?_⟩
      · exact (h.files fingerprint file hfile).continues hcontinues
      · have happend : (builds.tasks ++ [.scheduling])[position]? = some (.running job phase) :=
          hphase
        rcases Nat.lt_or_ge position builds.tasks.length with hlt | hge
        · rw [List.getElem?_append_left hlt] at happend
          exact h.tasks position job phase happend
        · rw [List.getElem?_append_right hge] at happend
          cases List.mem_singleton.mp (List.mem_of_getElem? happend)
      · exact (h.queries query hquery).carry fun _ _ hfile => hfile.continues hcontinues
  | task position count => exact ⟨known, h.taskStep hcalm.covered position count⟩
  | query request control =>
    unfold LexicalBuilds.step
    dsimp only
    split
    · rename_i runtime hruntime
      split
      · rename_i hcollection
        refine ⟨known, h.history, h.cache, h.files, h.tasks, fun query hquery => ?_⟩
        rcases List.mem_append.mp hquery with hold | hnew
        · exact h.queries query hold
        · rw [List.mem_singleton.mp hnew]
          exact h.start hruntime hcalm.covered hcollection control
      · exact ⟨known, h⟩
    · exact ⟨known, h⟩
  | lookup position =>
    unfold LexicalBuilds.step LexicalBuilds.queryStep
    dsimp only
    split
    · rename_i query hquery
      split
      · rename_i prepared job phase hphase
        refine ⟨known, h.lookupStep hinjective (List.mem_of_getElem? hquery) hphase
          (fun hopen => ?_) (fun file hread => ?_) position⟩
        · rw [hopen] at hphase
          exact hcalm.opens position query prepared job rfl hquery hphase
        · rw [hread] at hphase
          exact hcalm.reads position query prepared job file rfl hquery hphase
      · exact ⟨known, h⟩
    · exact ⟨known, h⟩

/-- What a run starts from: the inputs on which fingerprints are injective, the states
that the collection has had so far, and files that hold their snapshots. -/
structure Start (state : AppState F) (inputs : Set LexicalInputs)
    (known : Set (Checkpoint × List Segment)) (store : Store F) (runtime : CollectionRuntime)
    (files : LexicalIndexStore) : Prop where
  injective : inputs.InjOn LexicalInputs.fingerprint
  history : History state known store
  live : store.runtime = some runtime
  snapshots : files.Sound inputs known
  covered : ∀ job, runtime.lexicalJob = some job → job.inputs ∈ inputs

/-- A collection that has just been created is such a start. -/
theorem start_created (state : AppState F) (config : CollectionConfig)
    (hinjective : inputs.InjOn LexicalInputs.fingerprint) :
    Start state inputs ∅ (Store.created state config)
      (.writable state.scope config [] [] (some ⟨.durable, none⟩) none) ⟨∅⟩ := by
  refine ⟨hinjective, History.created state config, rfl, fun fingerprint bytes hbytes => ?_,
    fun job hjob => ?_⟩
  · rw [Std.ExtTreeMap.getElem?_empty] at hbytes
    cases hbytes
  · cases (LexicalJob.current_of_lexicalJob hjob).checkpoint

/-- Every answer so far is that of an index built for its query. -/
def AnswersFresh (builds : LexicalBuilds F S) : Prop :=
  ∀ query ∈ builds.queries, ∀ result, query.phase = .answered result →
    result = LexicalQueryRun.freshAnswer query.runtime query.request query.control

/-- In a calm run every query is answered as with an index built for it, from the
state that the collection keeps until then. -/
theorem answersFresh_of_calm {store : Store F} {runtime : CollectionRuntime}
    {files : LexicalIndexStore} (hstart : Start state inputs known store runtime files)
    (hrun : Reaches (step state) (Calm inputs) (opened store runtime files) builds) :
    AnswersFresh builds ∧ ∀ query ∈ builds.queries, query.phase.isAnswered = false →
      builds.store.runtime = some query.runtime := by
  have hsound : ∃ known, Sound inputs known state builds := by
    refine hrun.invariant (fun builds => ∃ known, Sound inputs known state builds) ⟨known, ?_⟩ ?_
    · exact opened_sound hstart.injective hstart.history hstart.live hstart.snapshots hstart.covered
    · intro builds event hbuilds hcalm
      obtain ⟨known, hsound⟩ := hbuilds
      exact hsound.step hstart.injective hcalm
  obtain ⟨known, hsound⟩ := hsound
  refine ⟨fun query hquery => (hsound.queries query hquery).answered, fun query hquery hopen => ?_⟩
  cases hphase : query.phase with
  | searching prepared job phase =>
    exact ((hsound.queries query hquery).searching prepared job phase hphase).1
  | answered result =>
    rw [hphase] at hopen
    cases hopen

end LexicalBuilds

/-! ### A build that is cancelled while a query looks for its snapshot -/

namespace LexicalBuilds

open LexicalIndexStore

def guideState : AppState Unit := ⟨titledCollection, none, 1, fun _ => ()⟩

def plainConfig : CollectionConfig := { guideConfig with lexicalFields := [] }

/-- The guide before it has lexical fields. -/
def plainRuntime : CollectionRuntime := { guideRuntime with config := some plainConfig }

def plainStore : Store Unit where
  dir := ⟨plainConfig, ⟨[guideSegment]⟩, some titledCheckpoint, some [], none⟩
  runtime := some plainRuntime

def guideStore : Store Unit where
  dir := ⟨guideConfig, ⟨[guideSegment]⟩, some titledCheckpoint, some [], none⟩
  runtime := some guideRuntime

def guideJob : LexicalJob := ⟨titledCheckpoint, [guideSegment], [titleField], .default⟩

def guideKnown : Set (Checkpoint × List Segment) := {(titledCheckpoint, [guideSegment])}

theorem history_guide (store : Store Unit) (runtime : CollectionRuntime)
    (hruntime : store.runtime = some runtime) (hsegments : store.dir.segments = ⟨[guideSegment]⟩)
    (hlive : runtime.live = guideRuntime.live) : History guideState guideKnown store := by
  have hids : ∀ id : SegmentId, id ∈ titledCheckpoint.segments →
      ∃ segment ∈ store.dir.segments.files, id ≤ segment.id := by
    intro id hid
    rw [hsegments, List.mem_singleton.mp hid]
    exact ⟨guideSegment, List.mem_singleton_self _, le_refl _⟩
  refine ⟨fun checkpoint segments segments' h h' => ?_, fun pair hpair => ?_,
    fun pair hpair id hid => ?_, runtime, hruntime, fun id hid => ?_, fun checkpoint h => ?_⟩
  · exact (congrArg Prod.snd h).trans (congrArg Prod.snd h').symm
  · rw [Set.mem_singleton_iff.mp hpair]
    rfl
  · rw [Set.mem_singleton_iff.mp hpair] at hid
    exact hids id hid
  · rw [liveIds_of_live hlive] at hid
    exact hids id hid
  · rw [show runtime.segments = [guideSegment] from congrArg Prod.snd hlive]
    rw [show runtime.checkpoint = some titledCheckpoint from congrArg Prod.fst hlive] at h
    cases h
    exact Set.mem_singleton _

theorem start_guide (store : Store Unit) (runtime : CollectionRuntime)
    (hruntime : store.runtime = some runtime) (hsegments : store.dir.segments = ⟨[guideSegment]⟩)
    (hlive : runtime.live = guideRuntime.live)
    (hcovered : ∀ job, runtime.lexicalJob = some job → job = guideJob) :
    @Start Unit asciiTables unitArith guideState {guideJob.inputs} guideKnown store runtime ⟨∅⟩ := by
  refine @Start.mk _ asciiTables unitArith _ _ _ _ _ _ (Set.injOn_singleton _ _)
    (history_guide store runtime hruntime hsegments hlive) hruntime
    (fun fingerprint bytes hbytes => ?_) fun job hjob => ?_
  · rw [Std.ExtTreeMap.getElem?_empty] at hbytes
    cases hbytes
  · rw [hcovered job hjob]
    exact Set.mem_singleton _

section Run

variable (S : Type) [ScoreArith S]

def guideStep : LexicalBuilds Unit S → Event → LexicalBuilds Unit S :=
  @step Unit S asciiTables unitArith _ guideState

def guideOpened : LexicalBuilds Unit S :=
  @opened Unit S asciiTables unitArith guideStore guideRuntime ⟨∅⟩

def guideQuery (phase : QueryPhase S) : LexicalQueryRun S :=
  ⟨guideRequest, .unbounded, guideRuntime, phase⟩

def guidePrepared : PreparedQuery := ⟨[guideSegment], ⟨"rust", [titleField], .default⟩, none⟩

theorem start_guideQuery : (@LexicalQueryRun.start S asciiTables unitArith _ guideRuntime
    guideRequest .unbounded) = guideQuery S (.searching guidePrepared guideJob .cache) := by
  unfold LexicalQueryRun.start
  rw [prepare_guide]
  rfl

variable {S} {builds : LexicalBuilds Unit S}

theorem step_guideQuery (h : builds.store = guideStore) :
    guideStep S builds (.query guideRequest .unbounded) = { builds with
      queries := builds.queries ++ [guideQuery S (.searching guidePrepared guideJob .cache)] } := by
  unfold guideStep step
  dsimp only
  rw [h, ← start_guideQuery]
  rfl

omit [ScoreArith S] in
theorem covered_guide (h : builds.store = guideStore) : Covered {guideJob.inputs} builds := by
  intro job hjob
  rw [h] at hjob
  cases hjob
  exact Set.mem_singleton _

theorem reaches_guideQuery : Reaches (guideStep S) (Calm {guideJob.inputs}) (guideOpened S)
    (guideStep S (guideStep S (guideOpened S) (.query guideRequest .unbounded)) (.lookup 0)) := by
  have hstore : (guideOpened S).store = guideStore := rfl
  have hfirst : Calm {guideJob.inputs} (guideOpened S) (.query guideRequest .unbounded) := by
    refine ⟨covered_guide hstore, fun _ _ _ _ hevent => ?_, fun _ _ _ _ _ hevent => ?_⟩
    · cases hevent
    · cases hevent
  have hphase : ∀ (position : ℕ) query prepared job phase,
      [guideQuery S (.searching guidePrepared guideJob .cache)][position]? = some query →
      query.phase = .searching prepared job phase → phase = .cache := by
    intro position query prepared job phase hquery hsearching
    rw [List.mem_singleton.mp (List.mem_of_getElem? hquery)] at hsearching
    cases hsearching
    rfl
  have hsecond : Calm {guideJob.inputs}
      (guideStep S (guideOpened S) (.query guideRequest .unbounded)) (.lookup 0) := by
    rw [step_guideQuery hstore]
    refine ⟨covered_guide hstore, fun position query prepared job _ hquery hopen => ?_,
      fun position query prepared job file _ hquery hread => ?_⟩
    · cases hphase position query prepared job _ hquery hopen
    · cases hphase position query prepared job _ hquery hread
  exact ((Reaches.refl _).tail _ hfirst).tail _ hsecond

/-- The query that follows the recovery. -/
theorem answersFresh_guide : @AnswersFresh Unit ℝ asciiTables unitArith _
    (guideStep ℝ (guideStep ℝ (guideOpened ℝ) (.query guideRequest .unbounded)) (.lookup 0)) := by
  have hstart : @Start Unit asciiTables unitArith guideState {guideJob.inputs} guideKnown guideStore
      guideRuntime ⟨∅⟩ := by
    refine start_guide guideStore guideRuntime rfl rfl rfl fun job hjob => ?_
    cases hjob
    rfl
  have hrun : Reaches (@step Unit ℝ asciiTables unitArith _ guideState) (Calm {guideJob.inputs})
      (@opened Unit ℝ asciiTables unitArith guideStore guideRuntime ⟨∅⟩)
      (guideStep ℝ (guideStep ℝ (guideOpened ℝ) (.query guideRequest .unbounded)) (.lookup 0)) :=
    reaches_guideQuery
  exact (@answersFresh_of_calm Unit ℝ asciiTables unitArith _ guideState {guideJob.inputs} guideKnown
    _ guideStore guideRuntime ⟨∅⟩ hstart hrun).1

/-! ### A build that is cancelled while a query looks for its snapshot -/

/-- One task over the guide, with an empty cache. -/
def guideBuilds (latest : Option UInt64) (directory : LexicalDirectory) (phase : BuildPhase)
    (queries : List (LexicalQueryRun S)) : LexicalBuilds Unit S :=
  ⟨guideStore, ∅, latest, false, directory, [.running guideJob phase], queries⟩

section Task

variable {start : LexicalBuilds Unit S} {latest : Option UInt64} {directory : LexicalDirectory}
  {phase : BuildPhase} {queries : List (LexicalQueryRun S)} {next : LexicalBuilds Unit S}
  {file : FileId}

abbrev GuideReaches (start next : LexicalBuilds Unit S) : Prop :=
  Reaches (guideStep S) (fun builds _ => Covered {guideJob.inputs} builds) start next

theorem GuideReaches.event (h : GuideReaches start builds) (event : Event)
    (hstore : builds.store = guideStore) (hnext : guideStep S builds event = next) :
    GuideReaches start next := by
  rw [← hnext]
  exact h.tail event (covered_guide hstore)

theorem GuideReaches.task {phase' : BuildPhase}
    (h : GuideReaches start (guideBuilds latest directory phase queries)) (count : ℕ)
    (hnext : @runStep Unit S asciiTables unitArith (guideBuilds latest directory phase queries) 0
      guideJob count phase = enter (guideBuilds latest directory phase queries) 0 guideJob phase') :
    GuideReaches start (guideBuilds latest directory phase' queries) :=
  h.event (.task 0 count) rfl hnext

theorem build_guideJob : @LexicalJob.build asciiTables unitArith guideJob = .ok guideIndex :=
  build_guide

/-- Up to the first call of `publish`. -/
theorem reaches_findSnapshot
    (h : GuideReaches start (guideBuilds none directory .registering queries)) :
    GuideReaches start (guideBuilds (some guideJob.fingerprint) directory
      (.publishing 1 guideIndex .findSnapshot) queries) := by
  have hlatest (phase : BuildPhase) :
      (guideBuilds (some guideJob.fingerprint) directory phase queries).latest =
        some guideJob.fingerprint := rfl
  have hcurrent : (guideBuilds (some guideJob.fingerprint) directory (.checking 1)
      queries).currentFingerprint = some guideJob.fingerprint := rfl
  have hstarting : GuideReaches start (guideBuilds (some guideJob.fingerprint) directory
      (.starting 1) queries) := by
    refine h.event (.task 0 0) rfl ?_
    show @runStep Unit S asciiTables unitArith (guideBuilds none directory .registering queries) 0
      guideJob 0 .registering = _
    unfold LexicalBuilds.runStep
    exact if_neg (Option.some_ne_none _).symm
  have hqueued : GuideReaches start (guideBuilds (some guideJob.fingerprint) directory
      (.queued 1) queries) := by
    exact hstarting.task 0 rfl
  have hadmitted : GuideReaches start (guideBuilds (some guideJob.fingerprint) directory
      (.admitted 1) queries) := by
    refine hqueued.task 0 ?_
    unfold LexicalBuilds.runStep
    exact if_pos (hlatest _)
  have hchecking : GuideReaches start (guideBuilds (some guideJob.fingerprint) directory
      (.checking 1) queries) := by
    refine hadmitted.task 0 ?_
    unfold LexicalBuilds.runStep
    exact if_pos (hlatest _)
  have hbuilding : GuideReaches start (guideBuilds (some guideJob.fingerprint) directory
      (.building 1) queries) := by
    refine hchecking.task 0 ?_
    unfold LexicalBuilds.runStep
    exact if_pos hcurrent
  refine hbuilding.task 0 ?_
  unfold LexicalBuilds.runStep
  dsimp only
  rw [build_guideJob]

theorem GuideReaches.publish {publish : PublishPhase} {directory' : LexicalDirectory}
    {phase' : BuildPhase}
    (h : GuideReaches start
      (guideBuilds latest directory (.publishing 1 guideIndex publish) queries)) (count : ℕ)
    (hnext : publishStep (guideBuilds latest directory (.publishing 1 guideIndex publish) queries) 0
      guideJob 1 guideIndex count publish = guideBuilds latest directory' phase' queries) :
    GuideReaches start (guideBuilds latest directory' phase' queries) :=
  h.event (.task 0 count) rfl hnext

/-- Through `publish` and `garbage_collect` with an empty index directory. -/
theorem reaches_built (hsnapshots : ∀ fingerprint : UInt64, directory.snapshots[fingerprint]? = none)
    (htemporaries : directory.temporaries[guideJob.fingerprint]? = none)
    (h : GuideReaches start (guideBuilds latest directory
      (.publishing 1 guideIndex .findSnapshot) queries)) :
    ∃ published : LexicalDirectory,
      published.snapshots[guideJob.fingerprint]? = some (.created 0 1) ∧
      GuideReaches start (guideBuilds latest published (.built 1 (.ok guideIndex)) queries) := by
  obtain ⟨bytes, hbytes⟩ : ∃ bytes, encodeSnapshot (.fromIndex guideIndex) = .ok bytes := ⟨_, rfl⟩
  have hfinding : GuideReaches start (guideBuilds latest directory
      (.publishing 1 guideIndex .findTemporary) queries) := by
    refine h.publish 0 ?_
    unfold LexicalBuilds.publishStep guideBuilds
    dsimp only
    rw [hsnapshots]
    rfl
  have hcreating : GuideReaches start (guideBuilds latest directory
      (.publishing 1 guideIndex .createTemporary) queries) := by
    refine hfinding.publish 0 ?_
    unfold LexicalBuilds.publishStep guideBuilds
    dsimp only
    rw [htemporaries]
    rfl
  have hwriting : GuideReaches start (guideBuilds latest
      (directory.createTemporary guideJob.fingerprint (.created 0 1))
      (.publishing 1 guideIndex (.write bytes)) queries) := by
    refine hcreating.publish 0 ?_
    unfold LexicalBuilds.publishStep guideBuilds
    dsimp only
    rw [htemporaries, hbytes]
    rfl
  obtain ⟨written, hwritten, htemporary, hdone⟩ : ∃ written : LexicalDirectory,
      written.snapshots = directory.snapshots ∧
      written.temporaries[guideJob.fingerprint]? = some (.created 0 1) ∧
      GuideReaches start (guideBuilds latest written
        (.publishing 1 guideIndex (.write [])) queries) := by
    have hself : (directory.temporaries.insert guideJob.fingerprint (FileId.created 0 1))[
        guideJob.fingerprint]? = some (.created 0 1) := Std.ExtTreeMap.getElem?_insert_self
    cases bytes with
    | nil =>
      exact ⟨directory.createTemporary guideJob.fingerprint (.created 0 1), rfl, hself, hwriting⟩
    | cons byte rest =>
      refine ⟨(directory.createTemporary guideJob.fingerprint (.created 0 1)).append (.created 0 1)
        ((byte :: rest).take (rest.length + 1)), rfl, hself, hwriting.publish rest.length ?_⟩
      have hdrop : (byte :: rest).drop (rest.length + 1) = [] := List.drop_length
      unfold LexicalBuilds.publishStep
      dsimp only
      rw [hdrop]
      rfl
  have hrenaming : GuideReaches start (guideBuilds latest written
      (.publishing 1 guideIndex .rename) queries) := hdone.publish 0 rfl
  have hlisting : GuideReaches start (guideBuilds latest
      (written.rename guideJob.fingerprint (.created 0 1))
      (.publishing 1 guideIndex .list) queries) := by
    refine hrenaming.publish 0 ?_
    unfold LexicalBuilds.publishStep guideBuilds
    dsimp only
    rw [htemporary]
    rfl
  have hothers : (written.rename guideJob.fingerprint (.created 0 1)).snapshots.keys.filter
      (fun other => other ≠ guideJob.fingerprint) = [] := by
    refine List.filter_eq_nil_iff.mpr fun other hother hne => of_decide_eq_true hne ?_
    have hmem : other ∈ written.snapshots.insert guideJob.fingerprint (.created 0 1) :=
      Std.ExtTreeMap.mem_keys.mp hother
    rcases Std.ExtTreeMap.mem_insert.mp hmem with heq | hold
    · exact (Std.LawfulEqOrd.eq_of_compare heq).symm
    · rw [hwritten, Std.ExtTreeMap.mem_iff_isSome_getElem?, hsnapshots] at hold
      cases hold
  have hcollecting : GuideReaches start (guideBuilds latest
      (written.rename guideJob.fingerprint (.created 0 1))
      (.publishing 1 guideIndex (.collect [])) queries) := by
    refine hlisting.publish 0 ?_
    rw [← hothers]
    rfl
  exact ⟨_, Std.ExtTreeMap.getElem?_insert_self, hcollecting.publish 0 rfl⟩

theorem GuideReaches.lookup {query : LexicalQueryRun S} {phase' : LookupPhase}
    (h : GuideReaches start (guideBuilds latest directory phase
      [guideQuery S (.searching guidePrepared guideJob phase')]))
    (hnext : @lookupStep Unit S asciiTables unitArith _
      (guideBuilds latest directory phase [guideQuery S (.searching guidePrepared guideJob phase')]) 0
      (guideQuery S (.searching guidePrepared guideJob phase')) guidePrepared guideJob phase' =
        guideBuilds latest directory phase [query]) :
    GuideReaches start (guideBuilds latest directory phase [query]) :=
  h.event (.lookup 0) rfl hnext

/-- The query sees the file, the cancelled task removes it, and the query cannot open it. -/
theorem reaches_notFound (hsnapshot : directory.snapshots[guideJob.fingerprint]? = some file)
    (h : GuideReaches start (guideBuilds latest directory (.built 1 (.ok guideIndex)) [])) :
    ∃ builds : LexicalBuilds Unit S, GuideReaches start builds ∧
      builds.queries = [guideQuery S (.answered (.error (.lexicalLifecycle notFound)))] := by
  have hcancelled : GuideReaches start
      (guideBuilds none directory (.built 1 (.ok guideIndex)) []) := h.event .cancel rfl rfl
  have hconfirming : GuideReaches start
      (guideBuilds none directory (.confirming 1 (.ok guideIndex)) []) := hcancelled.task 0 rfl
  have hstale : GuideReaches start (guideBuilds none directory (.findingStale false) []) := by
    refine hconfirming.task 0 ?_
    unfold LexicalBuilds.runStep
    exact if_neg (Option.some_ne_none _).symm
  have hquery : GuideReaches start (guideBuilds none directory (.findingStale false)
      [guideQuery S (.searching guidePrepared guideJob .cache)]) :=
    hstale.event (.query guideRequest .unbounded) rfl (step_guideQuery rfl)
  have hlocate : GuideReaches start (guideBuilds none directory (.findingStale false)
      [guideQuery S (.searching guidePrepared guideJob .locate)]) := by
    refine hquery.lookup ?_
    unfold LexicalBuilds.lookupStep guideBuilds
    dsimp only
    rw [Std.ExtTreeMap.getElem?_empty]
    rfl
  have hopen : GuideReaches start (guideBuilds none directory (.findingStale false)
      [guideQuery S (.searching guidePrepared guideJob .open)]) := by
    refine hlocate.lookup ?_
    unfold LexicalBuilds.lookupStep guideBuilds
    dsimp only
    rw [hsnapshot]
    rfl
  have hremoving : GuideReaches start (guideBuilds none directory (.removingStale false)
      [guideQuery S (.searching guidePrepared guideJob .open)]) := by
    refine hopen.task 0 ?_
    unfold LexicalBuilds.runStep guideBuilds
    dsimp only
    rw [hsnapshot]
  have hremoved : GuideReaches start (guideBuilds none
      (directory.removeSnapshot guideJob.fingerprint) .done
      [guideQuery S (.searching guidePrepared guideJob .open)]) :=
    hremoving.event (.task 0 0) rfl rfl
  have hmissing : (directory.removeSnapshot guideJob.fingerprint).snapshots[
      guideJob.fingerprint]? = none := Std.ExtTreeMap.getElem?_erase_self
  have hanswered : GuideReaches start (guideBuilds none
      (directory.removeSnapshot guideJob.fingerprint) .done
      [guideQuery S (.answered (.error (.lexicalLifecycle notFound)))]) := by
    refine hremoved.lookup ?_
    unfold LexicalBuilds.lookupStep guideBuilds
    dsimp only
    rw [hmissing]
    rfl
  exact ⟨_, hanswered, rfl⟩

end Task

theorem freshAnswer_guide : @LexicalQueryRun.freshAnswer ℝ asciiTables unitArith _ guideRuntime
    guideRequest .unbounded =
      .ok [⟨.unsigned 1, .half, 1, guideRecord.metadata, none, some 1, none, some .half⟩] := by
  have hcurrent : guideJob.Current guideRuntime := ⟨rfl, rfl, rfl, rfl, rfl⟩
  have hanswer := @answer_of_build asciiTables unitArith ℝ _ guideRuntime guideRequest guidePrepared
    guideJob guideIndex prepare_guide hcurrent rfl build_guideJob .unbounded
  unfold LexicalQueryRun.freshAnswer
  rw [prepare_guide, except_ok_bind]
  exact hanswer.symm.trans answer_guide

def guideDirectory : LexicalDirectory := .ofStore ⟨∅⟩

def plainBuilds (store : Store Unit) (tasks : List BuildTask) : LexicalBuilds Unit S :=
  ⟨store, ∅, none, false, guideDirectory, tasks, []⟩

omit [ScoreArith S] in
theorem opened_plain : @opened Unit S asciiTables unitArith plainStore plainRuntime ⟨∅⟩ =
    plainBuilds plainStore [] := by
  have hrecovered : @recoverLexical asciiTables unitArith plainRuntime ⟨∅⟩ =
      (⟨plainRuntime, ∅⟩, ⟨∅⟩) := rfl
  unfold opened
  rw [hrecovered]
  rfl

/-- The schema update that gives the guide its lexical field. -/
theorem step_updateGuide : guideStep S (plainBuilds plainStore [])
    (.write (.updateLexicalSchema [titleField] .default) []) = plainBuilds guideStore [] := by
  have hfields : plainConfig.withLexicalFields [titleField] = guideConfig := by
    unfold CollectionConfig.withLexicalFields
    rw [Lib.SortedSet.sortDedup_singleton]
    rfl
  have hconfig : updatedConfig guideState plainConfig [titleField] .default = .ok guideConfig :=
    congrArg (fun config : CollectionConfig =>
      (.ok (config.withLexicalAnalyzer .default) : Except WriteError CollectionConfig)) hfields
  have hrun : (WriteService.lockedSection guideState S
      (.updateLexicalSchema [titleField] .default)).run plainStore [] =
        (.ok (), ⟨guideStore, []⟩) := by
    show (WriteService.updateLexicalSchema guideState [titleField] .default).run plainStore [] = _
    unfold WriteService.updateLexicalSchema
    show ((do
      let config ← Program.lift (updatedConfig guideState plainConfig [titleField] .default)
      Program.durable (.io "collection configuration was not persisted")
        (Store.updateDir fun dir => { dir with config := config })
      updateRuntime fun runtime => { runtime with config := some config } :
        Program (Store Unit) WriteError Unit)).run plainStore [] = _
    rw [hconfig]
    rfl
  unfold guideStep step writeStep plainBuilds
  dsimp only
  rw [hrun]
  rfl

theorem reaches_registering : GuideReaches (plainBuilds plainStore [] : LexicalBuilds Unit S)
    (guideBuilds none guideDirectory .registering []) := by
  have hplain : Covered {guideJob.inputs} (plainBuilds plainStore [] : LexicalBuilds Unit S) := by
    intro job hjob
    cases hjob
  have hupdated : GuideReaches (plainBuilds plainStore [] : LexicalBuilds Unit S)
      (plainBuilds guideStore []) := by
    rw [← step_updateGuide]
    exact (Reaches.refl _).tail _ hplain
  have hscheduled : GuideReaches (plainBuilds plainStore [] : LexicalBuilds Unit S)
      (plainBuilds guideStore [.scheduling]) := hupdated.event .schedule rfl rfl
  exact hscheduled.event (.task 0 0) rfl rfl

/-- An update of the schema cancels the build of the one before it, and the query
between them fails. -/
theorem not_answersFresh_cancelled : ∃ builds : LexicalBuilds Unit ℝ,
    @Start Unit asciiTables unitArith guideState {guideJob.inputs} guideKnown plainStore plainRuntime
      ⟨∅⟩ ∧
    Reaches (@step Unit ℝ asciiTables unitArith _ guideState)
      (fun builds _ => Covered {guideJob.inputs} builds)
      (@opened Unit ℝ asciiTables unitArith plainStore plainRuntime ⟨∅⟩) builds ∧
    ¬@AnswersFresh Unit ℝ asciiTables unitArith _ builds := by
  have hstart : @Start Unit asciiTables unitArith guideState {guideJob.inputs} guideKnown plainStore
      plainRuntime ⟨∅⟩ := by
    refine start_guide plainStore plainRuntime rfl rfl rfl fun job hjob => ?_
    cases hjob
  have hsnapshots (fingerprint : UInt64) : guideDirectory.snapshots[fingerprint]? = none := by
    show ((∅ : Std.ExtTreeMap UInt64 Bytes compare).map fun fingerprint _ =>
      FileId.initial fingerprint)[fingerprint]? = none
    rw [Std.ExtTreeMap.getElem?_map, Std.ExtTreeMap.getElem?_empty]
    rfl
  obtain ⟨published, hpublished, hbuilt⟩ := reaches_built hsnapshots
    Std.ExtTreeMap.getElem?_empty (reaches_findSnapshot (reaches_registering (S := ℝ)))
  obtain ⟨builds, hreaches, hqueries⟩ := reaches_notFound hpublished hbuilt
  refine ⟨builds, hstart, ?_, fun hfresh => ?_⟩
  · rw [opened_plain]
    exact hreaches
  · have hanswer := hfresh _ (hqueries ▸ List.mem_singleton_self _) _ rfl
    cases hanswer.trans freshAnswer_guide

end Run

end LexicalBuilds

end Ketebe
