import Ketebe.LexicalHistory
import Ketebe.Lib.Runs

/-!
What every step of writers, builds and queries keeps. An index that is cached or
carried is the one its fingerprint stands for, and a file under a name holds the
snapshot of that index up to what its task has yet to write. So a query is answered
as with a fresh index where it meets neither a removed file nor an unfinished one.
-/
namespace Ketebe

open Lib.ByteCodec Lib.Durable Lib.Frame Lib.Runs LexicalSnapshotFile WriteService LexicalRuntime

namespace BuildPhase

/-- The index that a task in this phase carries. -/
def carried : BuildPhase → Option LexicalIndex
  | .publishing _ index _ | .installing index => some index
  | .built _ result | .confirming _ result | .rechecking _ result => result.toOption
  | _ => none

/-- The attempt that is writing and the bytes it has left. -/
def unwritten : BuildPhase → Option (ℕ × Bytes)
  | .publishing attempt _ (.write rest) => some (attempt, rest)
  | _ => none

end BuildPhase

/-- A task has these bytes left to write into the file of its attempt. -/
def Writing (tasks : List BuildTask) (position attempt : ℕ) (rest : Bytes) : Prop :=
  ∃ job phase, tasks[position]? = some (.running job phase) ∧
    phase.unwritten = some (attempt, rest)

/-- Tasks keep their jobs, and one with bytes left to write keeps these. -/
def Continues (tasks later : List BuildTask) : Prop :=
  ∀ (position : ℕ) job phase, tasks[position]? = some (.running job phase) →
    ∃ phase', later[position]? = some (.running job phase') ∧
      ∀ attempt rest, phase.unwritten = some (attempt, rest) →
        rest = [] ∨ phase'.unwritten = some (attempt, rest)

theorem continues_append (tasks : List BuildTask) (task : BuildTask) :
    Continues tasks (tasks ++ [task]) := by
  intro position job phase hphase
  obtain ⟨hlt, -⟩ := List.getElem?_eq_some_iff.mp hphase
  refine ⟨phase, ?_, fun attempt rest h => .inr h⟩
  rw [List.getElem?_append_left hlt]
  exact hphase

theorem continues_set {tasks : List BuildTask} {position : ℕ} {task : BuildTask}
    (h : ∀ job phase, tasks[position]? = some (.running job phase) →
      ∃ phase', task = .running job phase' ∧
        ∀ attempt rest, phase.unwritten = some (attempt, rest) →
          rest = [] ∨ phase'.unwritten = some (attempt, rest)) :
    Continues tasks (tasks.set position task) := by
  intro other job phase hphase
  by_cases hother : position = other
  · subst hother
    obtain ⟨phase', rfl, hrest⟩ := h job phase hphase
    obtain ⟨hlt, -⟩ := List.getElem?_eq_some_iff.mp hphase
    exact ⟨phase', List.getElem?_set_self hlt, hrest⟩
  · refine ⟨phase, ?_, fun attempt rest hrest => .inr hrest⟩
    rw [List.getElem?_set_ne hother]
    exact hphase

/-- Some name in the directory for the fingerprint leads to the file. -/
def LexicalDirectory.Names (directory : LexicalDirectory) (fingerprint : UInt64) (file : FileId) :
    Prop :=
  directory.snapshots[fingerprint]? = some file ∨ directory.temporaries[fingerprint]? = some file

namespace LexicalDirectory

variable {directory : LexicalDirectory} {fingerprint other : UInt64} {file named : FileId}

theorem names_removeSnapshot (h : (directory.removeSnapshot other).Names fingerprint file) :
    directory.Names fingerprint file := by
  rcases h with h | h
  · unfold removeSnapshot at h
    rw [Std.ExtTreeMap.getElem?_erase] at h
    split at h
    · cases h
    · exact .inl h
  · exact .inr h

theorem names_removeTemporary (h : (directory.removeTemporary other).Names fingerprint file) :
    directory.Names fingerprint file := by
  rcases h with h | h
  · exact .inl h
  · unfold removeTemporary at h
    rw [Std.ExtTreeMap.getElem?_erase] at h
    split at h
    · cases h
    · exact .inr h

theorem names_rename (hnamed : directory.temporaries[other]? = some named)
    (h : (directory.rename other named).Names fingerprint file) :
    directory.Names fingerprint file := by
  unfold rename at h
  rcases h with h | h
  · rw [Std.ExtTreeMap.getElem?_insert] at h
    split at h
    · rename_i heq
      cases h
      rw [← Std.LawfulEqOrd.eq_of_compare heq]
      exact .inr hnamed
    · exact .inl h
  · rw [Std.ExtTreeMap.getElem?_erase] at h
    split at h
    · cases h
    · exact .inr h

theorem names_createTemporary (h : (directory.createTemporary other named).Names fingerprint file) :
    directory.Names fingerprint file ∨ fingerprint = other ∧ file = named := by
  unfold createTemporary at h
  rcases h with h | h
  · exact .inl (.inl h)
  · rw [Std.ExtTreeMap.getElem?_insert] at h
    split at h
    · rename_i heq
      cases h
      exact .inr ⟨(Std.LawfulEqOrd.eq_of_compare heq).symm, rfl⟩
    · exact .inl (.inr h)

end LexicalDirectory

/-! ### The invariant -/

section Invariant

variable [Unicode] [LexicalArith] (inputs : Set LexicalInputs)
  (known : Set (Checkpoint × List Segment))

structure FileOk (tasks : List BuildTask) (contents : FileId → Bytes) (fingerprint : UInt64)
    (file : FileId) : Prop where
  content : ∃ rest, StoredAs inputs known fingerprint (contents file ++ rest) ∧
    (rest = [] ∨ ∃ position attempt, file = .created position attempt ∧
      Writing tasks position attempt rest)
  owner : ∀ position attempt, file = .created position attempt →
    ∃ job phase, tasks[position]? = some (.running job phase) ∧ job.fingerprint = fingerprint

structure TaskOk (contents : FileId → Bytes) (position : ℕ) (job : LexicalJob)
    (phase : BuildPhase) : Prop where
  known : job.Known inputs known
  carried : ∀ index, phase.carried = some index → job.build = .ok index
  unwritten : ∀ attempt rest, phase.unwritten = some (attempt, rest) →
    ∃ index, job.build = .ok index ∧
      encodeSnapshot (.fromIndex index) = .ok (contents (.created position attempt) ++ rest)

variable {S : Type}

structure SearchOk (tasks : List BuildTask) (contents : FileId → Bytes)
    (query : LexicalQueryRun S) (prepared : PreparedQuery) (job : LexicalJob)
    (phase : LookupPhase) : Prop where
  prepared : prepare query.runtime query.request = .ok prepared
  current : job.Current query.runtime
  collection : query.request.collectionId = job.checkpoint.collectionId
  file : ∀ file, phase = .read file → FileOk inputs known tasks contents job.fingerprint file
  index : ∀ index, phase = .install index → job.build = .ok index
  known : job.Known inputs known

/-- A query at work has the lock, so that its runtime is still that of the store. -/
structure QueryOk [ScoreArith S] (tasks : List BuildTask) (contents : FileId → Bytes)
    (runtime : Option CollectionRuntime) (query : LexicalQueryRun S) : Prop where
  answered : ∀ result, query.phase = .answered result →
    result = LexicalQueryRun.freshAnswer query.runtime query.request query.control
  searching : ∀ prepared job phase, query.phase = .searching prepared job phase →
    runtime = some query.runtime ∧
      SearchOk inputs known tasks contents query prepared job phase

structure LexicalBuilds.Sound {F : Type} [ScoreArith S] (state : AppState F)
    (builds : LexicalBuilds F S) : Prop where
  history : History state known builds.store
  cache : ∀ fingerprint index, builds.cache[fingerprint]? = some index →
    StandsFor inputs known fingerprint index
  files : ∀ fingerprint file, builds.directory.Names fingerprint file →
    FileOk inputs known builds.tasks builds.directory.contents fingerprint file
  tasks : ∀ position job phase, builds.tasks[position]? = some (.running job phase) →
    TaskOk inputs known builds.directory.contents position job phase
  queries : ∀ query ∈ builds.queries, QueryOk inputs known builds.tasks builds.directory.contents
    builds.store.runtime query

end Invariant

/-! ### What carries over -/

section Frame

variable [Unicode] [LexicalArith] {inputs : Set LexicalInputs}
  {known known' : Set (Checkpoint × List Segment)} {tasks later : List BuildTask}
  {contents : FileId → Bytes} {fingerprint : UInt64} {file : FileId}

theorem FileOk.mono (h : FileOk inputs known tasks contents fingerprint file)
    (hsubset : known ⊆ known') : FileOk inputs known' tasks contents fingerprint file := by
  obtain ⟨rest, hstored, hrest⟩ := h.content
  exact ⟨⟨rest, hstored.mono hsubset, hrest⟩, h.owner⟩

theorem FileOk.continues (h : FileOk inputs known tasks contents fingerprint file)
    (hlater : Continues tasks later) : FileOk inputs known later contents fingerprint file := by
  constructor
  · obtain ⟨rest, hstored, hrest⟩ := h.content
    refine ⟨rest, hstored, ?_⟩
    rcases hrest with hrest | ⟨position, attempt, hfile, job, phase, hphase, hunwritten⟩
    · exact .inl hrest
    · obtain ⟨phase', hphase', hkeeps⟩ := hlater position job phase hphase
      rcases hkeeps attempt rest hunwritten with hempty | hunwritten'
      · exact .inl hempty
      · exact .inr ⟨position, attempt, hfile, job, phase', hphase', hunwritten'⟩
  · intro position attempt hfile
    obtain ⟨job, phase, hphase, hfingerprint⟩ := h.owner position attempt hfile
    obtain ⟨phase', hphase', -⟩ := hlater position job phase hphase
    exact ⟨job, phase', hphase', hfingerprint⟩

theorem TaskOk.mono {position : ℕ} {job : LexicalJob} {phase : BuildPhase}
    (h : TaskOk inputs known contents position job phase) (hsubset : known ⊆ known') :
    TaskOk inputs known' contents position job phase :=
  ⟨h.known.mono hsubset, h.carried, h.unwritten⟩

/-- A task of this job writes the file of its attempt; the rest is as before. -/
theorem FileOk.write {position attempt : ℕ} {job : LexicalJob} {phase : BuildPhase}
    {index : LexicalIndex} {content rest : Bytes}
    (h : FileOk inputs known tasks contents fingerprint file)
    (htask : tasks[position]? = some (.running job phase))
    (hsettled : ∀ other rest, phase.unwritten = some (other, rest) → other = attempt)
    (hjob : job.Known inputs known) (hbuild : job.build = .ok index)
    (hbytes : encodeSnapshot (.fromIndex index) = .ok (content ++ rest)) :
    FileOk inputs known
      (tasks.set position (.running job (.publishing attempt index (.write rest))))
      (Function.update contents (.created position attempt) content) fingerprint file := by
  obtain ⟨hlt, -⟩ := List.getElem?_eq_some_iff.mp htask
  have hself : (tasks.set position (.running job (.publishing attempt index (.write rest))))[
      position]? = some (.running job (.publishing attempt index (.write rest))) :=
    List.getElem?_set_self hlt
  constructor
  · by_cases hfile : file = .created position attempt
    · subst hfile
      obtain ⟨owner, phase', howner, hfingerprint⟩ := h.owner position attempt rfl
      rw [htask] at howner
      cases howner
      refine ⟨rest, ?_, .inr ⟨position, attempt, rfl, job, _, hself, rfl⟩⟩
      rw [Function.update_self]
      exact ⟨index, ⟨job, hjob, hfingerprint, hbuild⟩, hbytes⟩
    · obtain ⟨left, hstored, hleft⟩ := h.content
      refine ⟨left, ?_, ?_⟩
      · rw [Function.update_of_ne hfile]
        exact hstored
      · rcases hleft with hleft | ⟨other, tried, rfl, owner, phase', howner, hunwritten⟩
        · exact .inl hleft
        · refine .inr ⟨other, tried, rfl, owner, phase', ?_, hunwritten⟩
          have hother : position ≠ other := by
            intro heq
            subst heq
            rw [htask] at howner
            cases howner
            exact hfile (by rw [hsettled tried left hunwritten])
          rw [List.getElem?_set_ne hother]
          exact howner
  · intro other tried hfile
    obtain ⟨owner, phase', howner, hfingerprint⟩ := h.owner other tried hfile
    by_cases hother : position = other
    · subst hother
      rw [htask] at howner
      cases howner
      exact ⟨job, _, hself, hfingerprint⟩
    · refine ⟨owner, phase', ?_, hfingerprint⟩
      rw [List.getElem?_set_ne hother]
      exact howner

theorem QueryOk.carry {S : Type} [ScoreArith S] {contents' : FileId → Bytes}
    {runtime : Option CollectionRuntime} {query : LexicalQueryRun S}
    (h : QueryOk inputs known tasks contents runtime query)
    (hfiles : ∀ fingerprint file, FileOk inputs known tasks contents fingerprint file →
      FileOk inputs known later contents' fingerprint file) :
    QueryOk inputs known later contents' runtime query := by
  refine ⟨h.answered, fun prepared job phase hphase => ?_⟩
  obtain ⟨hruntime, hsearch⟩ := h.searching prepared job phase hphase
  exact ⟨hruntime, hsearch.prepared, hsearch.current, hsearch.collection,
    fun file hfile => hfiles _ _ (hsearch.file file hfile), hsearch.index, hsearch.known⟩

end Frame

namespace LexicalBuilds.Sound

variable {F S : Type} [Unicode] [LexicalArith] [ScoreArith S] {state : AppState F}
  {inputs : Set LexicalInputs} {known : Set (Checkpoint × List Segment)}
  {builds : LexicalBuilds F S} {position : ℕ} {job : LexicalJob} {phase phase' : BuildPhase}

theorem setTask {task : BuildTask} (h : Sound inputs known state builds)
    (hcontinues : Continues builds.tasks (builds.tasks.set position task))
    (htask : ∀ job phase, task = .running job phase →
      TaskOk inputs known builds.directory.contents position job phase) :
    Sound inputs known state (builds.setTask position task) where
  history := h.history
  cache := h.cache
  files fingerprint file hfile := (h.files fingerprint file hfile).continues hcontinues
  tasks other job phase hphase := by
    have hset : (builds.tasks.set position task)[other]? = some (.running job phase) := hphase
    by_cases hother : position = other
    · subst hother
      obtain ⟨hlt, hget⟩ := List.getElem?_eq_some_iff.mp hset
      rw [List.getElem_set_self] at hget
      exact htask job phase hget
    · rw [List.getElem?_set_ne hother] at hset
      exact h.tasks other job phase hset
  queries query hquery := (h.queries query hquery).carry fun _ _ hfile => hfile.continues hcontinues

/-- A task that has nothing left to write goes on to a phase without writing. -/
theorem enter (h : Sound inputs known state builds)
    (htask : builds.tasks[position]? = some (.running job phase))
    (hsettled : ∀ attempt rest, phase.unwritten = some (attempt, rest) → rest = [])
    (hcarried : ∀ index, phase'.carried = some index → job.build = .ok index)
    (hunwritten : phase'.unwritten = none) :
    Sound inputs known state (enter builds position job phase') := by
  refine h.setTask (continues_set fun owner other howner => ?_) fun owner other howner => ?_
  · rw [htask] at howner
    cases howner
    exact ⟨phase', rfl, fun attempt rest hrest => .inl (hsettled attempt rest hrest)⟩
  · cases howner
    refine ⟨(h.tasks position job phase htask).known, hcarried, fun attempt rest hrest => ?_⟩
    rw [hunwritten] at hrest
    cases hrest

/-- Names may go and move; the files stay as they are. -/
theorem directory {directory : LexicalDirectory} (h : Sound inputs known state builds)
    (hcontents : directory.contents = builds.directory.contents)
    (hnames : ∀ fingerprint file, directory.Names fingerprint file →
      builds.directory.Names fingerprint file) :
    Sound inputs known state { builds with directory := directory } where
  history := h.history
  cache := h.cache
  files fingerprint file hfile := by
    show FileOk inputs known builds.tasks directory.contents fingerprint file
    rw [hcontents]
    exact h.files fingerprint file (hnames fingerprint file hfile)
  tasks other job phase hphase := by
    show TaskOk inputs known directory.contents other job phase
    rw [hcontents]
    exact h.tasks other job phase hphase
  queries query hquery := by
    show QueryOk inputs known builds.tasks directory.contents builds.store.runtime query
    rw [hcontents]
    exact h.queries query hquery

/-- The start of a file and every chunk after it. -/
theorem write {directory : LexicalDirectory} {attempt : ℕ} {index : LexicalIndex}
    {content rest : Bytes} (h : Sound inputs known state builds)
    (htask : builds.tasks[position]? = some (.running job phase))
    (hsettled : ∀ other rest, phase.unwritten = some (other, rest) → other = attempt)
    (hbuild : job.build = .ok index)
    (hbytes : encodeSnapshot (.fromIndex index) = .ok (content ++ rest))
    (hcontents : directory.contents =
      Function.update builds.directory.contents (.created position attempt) content)
    (hnames : ∀ fingerprint file, directory.Names fingerprint file →
      builds.directory.Names fingerprint file ∨
        fingerprint = job.fingerprint ∧ file = .created position attempt) :
    Sound inputs known state (LexicalBuilds.enter { builds with directory := directory } position
      job (.publishing attempt index (.write rest))) := by
  have hjob := (h.tasks position job phase htask).known
  obtain ⟨hlt, -⟩ := List.getElem?_eq_some_iff.mp htask
  have hself : (builds.tasks.set position (.running job (.publishing attempt index
      (.write rest))))[position]? = some (.running job (.publishing attempt index (.write rest))) :=
    List.getElem?_set_self hlt
  refine ⟨h.history, h.cache, fun fingerprint file hfile => ?_, fun other owner later hlater => ?_,
    fun query hquery => ?_⟩
  · show FileOk inputs known (builds.tasks.set position _) directory.contents fingerprint file
    rw [hcontents]
    rcases hnames fingerprint file hfile with hold | ⟨rfl, rfl⟩
    · exact (h.files fingerprint file hold).write htask hsettled hjob hbuild hbytes
    · refine ⟨⟨rest, ?_, .inr ⟨position, attempt, rfl, job, _, hself, rfl⟩⟩, ?_⟩
      · rw [Function.update_self]
        exact ⟨index, ⟨job, hjob, rfl, hbuild⟩, hbytes⟩
      · intro other tried hfile
        cases hfile
        exact ⟨job, _, hself, rfl⟩
  · show TaskOk inputs known directory.contents other owner later
    rw [hcontents]
    have hset : (builds.tasks.set position (.running job (.publishing attempt index
        (.write rest))))[other]? = some (.running owner later) := hlater
    by_cases hother : position = other
    · subst hother
      rw [hself] at hset
      cases hset
      refine ⟨hjob, fun found hfound => ?_, fun tried left hleft => ?_⟩
      · cases hfound
        exact hbuild
      · cases hleft
        rw [Function.update_self]
        exact ⟨index, hbuild, hbytes⟩
    · rw [List.getElem?_set_ne hother] at hset
      have hkept := h.tasks other owner later hset
      refine ⟨hkept.known, hkept.carried, fun tried left hleft => ?_⟩
      rw [Function.update_of_ne fun heq => hother (FileId.created.inj heq).1.symm]
      exact hkept.unwritten tried left hleft
  · show QueryOk inputs known (builds.tasks.set position _) directory.contents
      builds.store.runtime query
    rw [hcontents]
    exact (h.queries query hquery).carry fun _ _ hfile =>
      hfile.write htask hsettled hjob hbuild hbytes

theorem install {fingerprint : UInt64} {index : LexicalIndex}
    (h : Sound inputs known state builds) (hindex : StandsFor inputs known fingerprint index) :
    Sound inputs known state (builds.install fingerprint index) where
  history := h.history
  cache other found hfound := by
    have hget : ((∅ : Std.ExtTreeMap UInt64 LexicalIndex compare).insert fingerprint index)[
        other]? = some found := hfound
    rw [Std.ExtTreeMap.getElem?_insert] at hget
    split at hget
    · rename_i heq
      cases hget
      rwa [← Std.LawfulEqOrd.eq_of_compare heq]
    · rw [Std.ExtTreeMap.getElem?_empty] at hget
      cases hget
  files := h.files
  tasks := h.tasks
  queries := h.queries

theorem setQuery {query : LexicalQueryRun S} (h : Sound inputs known state builds)
    (hquery : QueryOk inputs known builds.tasks builds.directory.contents builds.store.runtime
      query) : Sound inputs known state (setQuery builds position query) where
  history := h.history
  cache := h.cache
  files := h.files
  tasks := h.tasks
  queries other hother := by
    rcases List.mem_or_eq_of_mem_set hother with hold | rfl
    · exact h.queries other hold
    · exact hquery

/-! ### Steps of a build task -/

theorem publishStep {attempt : ℕ} {index : LexicalIndex} {publish : PublishPhase}
    (h : Sound inputs known state builds)
    (htask : builds.tasks[position]? = some (.running job (.publishing attempt index publish)))
    (count : ℕ) :
    Sound inputs known state (publishStep builds position job attempt index count publish) := by
  have hok := h.tasks position job _ htask
  have hbuild : job.build = .ok index := hok.carried index rfl
  -- Every call but a write leaves a phase that has nothing to write.
  have hnext {next : LexicalBuilds F S} {later : BuildPhase}
      (hnext : Sound inputs known state next)
      (htask : next.tasks[position]? = some (.running job (.publishing attempt index publish)))
      (hsettled : ∀ rest, publish = .write rest → rest = [])
      (hcarried : later.carried = some index ∨ later.carried = none)
      (hunwritten : later.unwritten = none) :
      Sound inputs known state (LexicalBuilds.enter next position job later) := by
    refine hnext.enter htask (fun other rest hrest => ?_) (fun found hfound => ?_) hunwritten
    · unfold BuildPhase.unwritten at hrest
      split at hrest
      · rename_i hphase
        cases hrest
        cases hphase
        exact hsettled _ rfl
      · cases hrest
    · rcases hcarried with hsame | hnone
      · rw [hsame] at hfound
        cases hfound
        exact hbuild
      · rw [hnone] at hfound
        cases hfound
  cases publish with
  | findSnapshot =>
    unfold LexicalBuilds.publishStep
    dsimp only
    split
    · exact hnext h htask nofun (.inl rfl) rfl
    · exact hnext h htask nofun (.inl rfl) rfl
  | findTemporary =>
    unfold LexicalBuilds.publishStep
    dsimp only
    split
    · exact hnext h htask nofun (.inl rfl) rfl
    · exact hnext h htask nofun (.inl rfl) rfl
  | removeTemporary =>
    unfold LexicalBuilds.publishStep
    dsimp only
    split
    · exact hnext (h.directory rfl fun _ _ => LexicalDirectory.names_removeTemporary) htask nofun
        (.inl rfl) rfl
    · exact hnext h htask nofun (.inr rfl) rfl
  | createTemporary =>
    unfold LexicalBuilds.publishStep
    dsimp only
    split
    · exact hnext h htask nofun (.inr rfl) rfl
    · exact hnext h htask nofun (.inr rfl) rfl
    · rename_i bytes hencoded _
      have hbytes : encodeSnapshot (.fromIndex index) = .ok ([] ++ bytes) := hencoded
      exact h.write htask nofun hbuild hbytes rfl
        fun _ _ => LexicalDirectory.names_createTemporary
  | write rest =>
    obtain ⟨found, hfound, hbytes⟩ := hok.unwritten attempt rest rfl
    rw [hbuild] at hfound
    cases hfound
    cases rest with
    | nil =>
      exact hnext h htask (fun rest hrest => (PublishPhase.write.inj hrest).symm) (.inl rfl) rfl
    | cons byte rest =>
      refine h.write htask (fun other left hleft => ?_) hbuild ?_ rfl fun _ _ hfile => .inl hfile
      · cases hleft
        rfl
      · rw [List.append_assoc, List.take_append_drop]
        exact hbytes
  | rename =>
    unfold LexicalBuilds.publishStep
    dsimp only
    split
    · rename_i file hfile
      exact hnext (h.directory rfl fun _ _ => LexicalDirectory.names_rename hfile) htask nofun
        (.inl rfl) rfl
    · exact hnext h htask nofun (.inr rfl) rfl
  | list => exact hnext h htask nofun (.inl rfl) rfl
  | collect fingerprints =>
    cases fingerprints with
    | nil => exact hnext h htask nofun (.inl rfl) rfl
    | cons other others =>
      unfold LexicalBuilds.publishStep
      dsimp only
      split
      · exact hnext (h.directory rfl fun _ _ => LexicalDirectory.names_removeSnapshot) htask nofun
          (.inl rfl) rfl
      · exact hnext h htask nofun (.inr rfl) rfl

theorem runStep (h : Sound inputs known state builds)
    (htask : builds.tasks[position]? = some (.running job phase)) (count : ℕ) :
    Sound inputs known state (runStep builds position job count phase) := by
  have hok := h.tasks position job phase htask
  have hnext {next : LexicalBuilds F S} {later : BuildPhase}
      (hnext : Sound inputs known state next)
      (htask : next.tasks[position]? = some (.running job phase))
      (hsettled : phase.unwritten = none)
      (hcarried : later.carried = phase.carried ∨ later.carried = none)
      (hunwritten : later.unwritten = none) :
      Sound inputs known state (LexicalBuilds.enter next position job later) := by
    refine hnext.enter htask (fun other rest hrest => ?_) (fun found hfound => ?_) hunwritten
    · rw [hsettled] at hrest
      cases hrest
    · rcases hcarried with hsame | hnone
      · exact hok.carried found (hsame ▸ hfound)
      · rw [hnone] at hfound
        cases hfound
  cases phase with
  | registering =>
    unfold LexicalBuilds.runStep
    dsimp only
    split
    · exact hnext h htask rfl (.inl rfl) rfl
    · exact hnext ⟨h.history, h.cache, h.files, h.tasks, h.queries⟩ htask rfl (.inl rfl) rfl
  | starting attempt =>
    unfold LexicalBuilds.runStep
    dsimp only
    split
    · exact hnext h htask rfl (.inl rfl) rfl
    · exact hnext h htask rfl (.inl rfl) rfl
  | queued attempt =>
    unfold LexicalBuilds.runStep
    dsimp only
    split
    · exact hnext h htask rfl (.inl rfl) rfl
    · exact hnext h htask rfl (.inl rfl) rfl
  | admitted attempt =>
    unfold LexicalBuilds.runStep
    dsimp only
    split
    · exact hnext h htask rfl (.inl rfl) rfl
    · exact hnext h htask rfl (.inl rfl) rfl
  | checking attempt =>
    unfold LexicalBuilds.runStep
    dsimp only
    split
    · exact hnext h htask rfl (.inl rfl) rfl
    · exact hnext h htask rfl (.inl rfl) rfl
  | building attempt =>
    unfold LexicalBuilds.runStep
    dsimp only
    split
    · rename_i index hindex
      refine h.enter htask (fun _ _ hrest => nomatch hrest) (fun found hfound => ?_) rfl
      cases hfound
      exact hindex
    · exact hnext h htask rfl (.inl rfl) rfl
  | publishing attempt index publish => exact h.publishStep htask count
  | built attempt result =>
    unfold LexicalBuilds.runStep
    dsimp only
    split
    · exact hnext h htask rfl (.inr rfl) rfl
    · exact hnext h htask rfl (.inl rfl) rfl
  | confirming attempt result =>
    unfold LexicalBuilds.runStep
    dsimp only
    split
    · exact hnext h htask rfl (.inl rfl) rfl
    · exact hnext h htask rfl (.inr rfl) rfl
  | rechecking attempt result =>
    unfold LexicalBuilds.runStep
    dsimp only
    split
    · cases result with
      | ok index => exact hnext h htask rfl (.inl rfl) rfl
      | error error =>
        dsimp only
        split
        · exact hnext h htask rfl (.inr rfl) rfl
        · exact hnext h htask rfl (.inr rfl) rfl
    · exact hnext h htask rfl (.inr rfl) rfl
  | installing index =>
    have hindex : StandsFor inputs known job.fingerprint index :=
      ⟨job, hok.known, rfl, hok.carried index rfl⟩
    exact hnext (h.install hindex) htask rfl (.inr rfl) rfl
  | findingStale finishes =>
    unfold LexicalBuilds.runStep
    dsimp only
    split
    · exact hnext h htask rfl (.inl rfl) rfl
    · cases finishes with
      | true => exact hnext h htask rfl (.inl rfl) rfl
      | false => exact hnext h htask rfl (.inl rfl) rfl
  | removingStale finishes =>
    have hremoved : Sound inputs known state { builds with
        directory := builds.directory.removeSnapshot job.fingerprint } :=
      h.directory rfl fun _ _ => LexicalDirectory.names_removeSnapshot
    cases finishes with
    | true => exact hnext hremoved htask rfl (.inl rfl) rfl
    | false => exact hnext hremoved htask rfl (.inl rfl) rfl
  | finishing => exact hnext ⟨h.history, h.cache, h.files, h.tasks, h.queries⟩ htask rfl (.inl rfl) rfl
  | done => exact h

theorem taskStep (h : Sound inputs known state builds)
    (hinputs : ∀ job, builds.store.runtime.bind CollectionRuntime.lexicalJob = some job →
      job.inputs ∈ inputs) (position count : ℕ) :
    Sound inputs known state (taskStep builds position count) := by
  unfold LexicalBuilds.taskStep
  split
  · rename_i hscheduling
    have hcontinues (task : BuildTask) :
        Continues builds.tasks (builds.tasks.set position task) := by
      refine continues_set fun job phase hphase => ?_
      rw [hscheduling] at hphase
      cases hphase
    split
    · rename_i job hjob
      refine h.setTask (hcontinues _) fun other phase hrunning => ?_
      cases hrunning
      refine ⟨⟨hinputs job hjob, ?_⟩, nofun, nofun⟩
      obtain ⟨runtime, hruntime, -, hcurrent⟩ := h.history.current
      rw [hruntime] at hjob
      have hlive := LexicalJob.current_of_lexicalJob hjob
      rw [hlive.segments]
      exact hcurrent job.checkpoint hlive.checkpoint
    · exact h.setTask (hcontinues _) nofun
  · exact h.runStep ‹_› count
  · exact h
  · exact h

end LexicalBuilds.Sound

/-! ### Steps of a query -/

/-- No task has bytes left to write into the file. -/
def LexicalBuilds.Complete {F S : Type} (builds : LexicalBuilds F S) (file : FileId) : Prop :=
  ∀ position attempt rest, file = .created position attempt →
    Writing builds.tasks position attempt rest → rest = []

section Lookup

variable {F S : Type} [Unicode] [LexicalArith] [ScoreArith S] {state : AppState F}
  {inputs : Set LexicalInputs} {known : Set (Checkpoint × List Segment)}
  {tasks : List BuildTask} {contents : FileId → Bytes} {runtime : Option CollectionRuntime}
  {query : LexicalQueryRun S} {prepared : PreparedQuery} {job : LexicalJob} {phase : LookupPhase}

theorem SearchOk.finish {persistent : Except LexicalIndexError (Option LexicalIndex)}
    (h : SearchOk inputs known tasks contents query prepared job phase)
    (hpersistent : persistent = .ok none ∨
      ∃ index, persistent = .ok (some index) ∧ job.build = .ok index) :
    QueryOk inputs known tasks contents runtime (query.finish prepared persistent) := by
  have hfresh : LexicalQueryRun.freshAnswer (S := S) query.runtime query.request query.control =
      answer S query.runtime query.request prepared query.control (.ok none) := by
    unfold LexicalQueryRun.freshAnswer
    rw [h.prepared, except_ok_bind]
  refine ⟨fun result hresult => ?_, nofun⟩
  cases hresult
  refine Eq.trans ?_ hfresh.symm
  rcases hpersistent with rfl | ⟨index, rfl, hbuild⟩
  · rfl
  · exact answer_of_build h.prepared h.current h.collection hbuild query.control

theorem SearchOk.advance {phase' : LookupPhase}
    (h : SearchOk inputs known tasks contents query prepared job phase)
    (hruntime : runtime = some query.runtime)
    (hfile : ∀ file, phase' = .read file →
      FileOk inputs known tasks contents job.fingerprint file)
    (hindex : ∀ index, phase' = .install index → job.build = .ok index) :
    QueryOk inputs known tasks contents runtime
      ({ query with phase := .searching prepared job phase' } : LexicalQueryRun S) := by
  refine ⟨nofun, fun other owner later hlater => ?_⟩
  cases hlater
  exact ⟨hruntime, h.prepared, h.current, h.collection, hfile, hindex, h.known⟩

namespace LexicalBuilds.Sound

variable {builds : LexicalBuilds F S}

theorem separates (h : Sound inputs known state builds)
    (hinjective : inputs.InjOn LexicalInputs.fingerprint) : Separates inputs known :=
  ⟨hinjective, h.history.functional⟩

theorem lookupStep (h : Sound inputs known state builds)
    (hinjective : inputs.InjOn LexicalInputs.fingerprint) (hquery : query ∈ builds.queries)
    (hphase : query.phase = .searching prepared job phase)
    (hopens : phase = .open → builds.directory.snapshots[job.fingerprint]? ≠ none)
    (hreads : ∀ file, phase = .read file → builds.Complete file) (position : ℕ) :
    Sound inputs known state (lookupStep builds position query prepared job phase) := by
  have hseparates := h.separates hinjective
  obtain ⟨hruntime, hsearch⟩ := (h.queries query hquery).searching prepared job phase hphase
  unfold LexicalBuilds.lookupStep
  cases phase with
  | cache =>
    dsimp only
    split
    · rename_i index hindex
      have hbuild := hseparates.build hsearch.known (h.cache _ index hindex)
      exact h.setQuery (hsearch.finish (.inr ⟨index, rfl, hbuild⟩))
    · exact h.setQuery (hsearch.advance hruntime nofun nofun)
  | locate =>
    dsimp only
    split
    · exact h.setQuery (hsearch.advance hruntime nofun nofun)
    · exact h.setQuery (hsearch.finish (.inl rfl))
  | «open» =>
    dsimp only
    split
    · rename_i file hfile
      refine h.setQuery (hsearch.advance hruntime (fun found hfound => ?_) nofun)
      cases hfound
      exact h.files _ file (.inl hfile)
    · rename_i hmissing
      exact absurd hmissing (hopens rfl)
  | read file =>
    have hstored : StoredAs inputs known job.fingerprint (builds.directory.contents file) := by
      obtain ⟨rest, hstored, hrest⟩ := (hsearch.file file rfl).content
      have hempty : rest = [] := by
        rcases hrest with hempty | ⟨owner, attempt, hfile, hwriting⟩
        · exact hempty
        · exact hreads file rfl owner attempt rest hfile hwriting
      rwa [hempty, List.append_nil] at hstored
    obtain ⟨index, hbuild, hread⟩ := hseparates.readSnapshot hsearch.known hstored
    dsimp only
    rw [hread]
    refine h.setQuery (hsearch.advance hruntime nofun fun found hfound => ?_)
    cases hfound
    exact hbuild
  | install index =>
    have hbuild := hsearch.index index rfl
    exact (h.install ⟨job, hsearch.known, rfl, hbuild⟩).setQuery
      (hsearch.finish (.inr ⟨index, rfl, hbuild⟩))

/-- The first section of a query, whose lock keeps the runtime as it is. -/
theorem start {runtime : CollectionRuntime} (h : Sound inputs known state builds)
    (hruntime : builds.store.runtime = some runtime)
    (hinputs : ∀ job, builds.store.runtime.bind CollectionRuntime.lexicalJob = some job →
      job.inputs ∈ inputs) {request : QueryV1Request}
    (hcollection : request.collectionId = state.collectionId) (control : QueryControl) :
    QueryOk inputs known builds.tasks builds.directory.contents builds.store.runtime
      (.start runtime request control : LexicalQueryRun S) := by
  unfold LexicalQueryRun.start
  split
  · rename_i error herror
    refine ⟨fun result hresult => ?_, nofun⟩
    cases hresult
    unfold LexicalQueryRun.freshAnswer
    dsimp only
    rw [herror]
    rfl
  · rename_i prepared hprepared
    split
    · refine ⟨fun result hresult => ?_, nofun⟩
      cases hresult
      unfold LexicalQueryRun.freshAnswer
      dsimp only
      rw [hprepared, except_ok_bind]
    · rename_i checkpoint hcheckpoint
      refine ⟨nofun, fun other job phase hphase => ?_⟩
      cases hphase
      rw [(prepare_ok hprepared).2.1] at hcheckpoint
      have hjob : runtime.lexicalJob = some ⟨checkpoint, runtime.segments,
          runtime.configuredLexicalFields, runtime.configuredLexicalAnalyzer⟩ :=
        congrArg (Option.map _) hcheckpoint
      have hcurrent := LexicalJob.current_of_lexicalJob hjob
      obtain ⟨live, hlive, -, hknown⟩ := h.history.current
      rw [hruntime] at hlive
      cases hlive
      have hstate := hknown checkpoint hcurrent.checkpoint
      refine ⟨hruntime, hprepared, hcurrent, ?_, nofun, nofun, hinputs _ ?_, hstate⟩
      · exact hcollection.trans (h.history.collection _ hstate).symm
      · rw [hruntime]
        exact hjob

end LexicalBuilds.Sound

end Lookup

end Ketebe
