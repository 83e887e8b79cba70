import Ketebe.LexicalBuilds

/-!
The states that a collection has had, as pairs of a checkpoint and its segments.
A checkpoint stands for one list of segments, so where fingerprints tell the
inputs apart, a fingerprint stands for one index and one snapshot.
-/
namespace Ketebe

open Lib.ByteCodec LexicalSnapshotFile WriteService LexicalRuntime

abbrev LexicalInputs := Checkpoint × List FieldPath × LexicalAnalyzerConfig

def LexicalInputs.fingerprint (inputs : LexicalInputs) : UInt64 :=
  lexicalCheckpointFingerprint inputs.1 inputs.2.1 inputs.2.2

def LexicalJob.inputs (job : LexicalJob) : LexicalInputs :=
  (job.checkpoint, job.fields, job.analyzer)

/-! ### States of the collection -/

structure History {F : Type} (state : AppState F) (known : Set (Checkpoint × List Segment))
    (store : Store F) : Prop where
  functional : ∀ checkpoint segments segments', (checkpoint, segments) ∈ known →
    (checkpoint, segments') ∈ known → segments = segments'
  collection : ∀ pair ∈ known, pair.1.collectionId = state.collectionId
  bounded : ∀ pair ∈ known, ∀ id ∈ pair.1.segments,
    ∃ segment ∈ store.dir.segments.files, id ≤ segment.id
  current : ∃ runtime, store.runtime = some runtime ∧ Bounded store runtime ∧
    ∀ checkpoint, runtime.checkpoint = some checkpoint → (checkpoint, runtime.segments) ∈ known

namespace History

variable {F : Type} {state : AppState F} {known : Set (Checkpoint × List Segment)}
  {store next : Store F}

theorem created (state : AppState F) (config : CollectionConfig) :
    History state ∅ (Store.created state config) where
  functional _ _ _ h := h.elim
  collection _ h := h.elim
  bounded _ h := h.elim
  current := ⟨_, rfl, fun _ hid => (List.not_mem_nil hid).elim, nofun⟩

/-- The states so far stay known, and the next one joins them. -/
theorem advance (h : History state known store) (hadvances : Advances state store next) :
    ∃ known', known ⊆ known' ∧ History state known' next := by
  have hids : ∀ pair ∈ known, ∀ id ∈ pair.1.segments,
      ∃ segment ∈ next.dir.segments.files, id ≤ segment.id := by
    intro pair hpair id hid
    obtain ⟨segment, hsegment, hle⟩ := h.bounded pair hpair id hid
    obtain ⟨later, hlater, hle'⟩ := hadvances.ids segment hsegment
    exact ⟨later, hlater, hle.trans hle'⟩
  obtain ⟨runtime, hruntime, hbounded, hcurrent⟩ := h.current
  obtain ⟨later, hlater, hbelow, hcase⟩ := hadvances.live runtime hruntime hbounded
  rcases hcase with hsame | ⟨checkpoint, hcheckpoint, hcollection, id, hid, hnew⟩
  · refine ⟨known, subset_rfl, h.functional, h.collection, hids, later, hlater, hbelow, ?_⟩
    have hsegments : later.segments = runtime.segments := congrArg Prod.snd hsame
    have hkept : later.checkpoint = runtime.checkpoint := congrArg Prod.fst hsame
    rw [hsegments, hkept]
    exact hcurrent
  · have hfresh : ∀ segments, (checkpoint, segments) ∉ known := by
      intro segments hpair
      obtain ⟨segment, hsegment, hle⟩ := h.bounded _ hpair id hid
      exact absurd (hnew segment hsegment) (not_lt.mpr hle)
    refine ⟨insert (checkpoint, later.segments) known, Set.subset_insert _ _, ?_, ?_, ?_, later,
      hlater, hbelow, ?_⟩
    · intro other segments segments' hpair hpair'
      rcases hpair with heq | hold <;> rcases hpair' with heq' | hold'
      · exact (congrArg Prod.snd heq).trans (congrArg Prod.snd heq').symm
      · rw [show other = checkpoint from congrArg Prod.fst heq] at hold'
        exact absurd hold' (hfresh segments')
      · rw [show other = checkpoint from congrArg Prod.fst heq'] at hold
        exact absurd hold (hfresh segments)
      · exact h.functional other segments segments' hold hold'
    · intro pair hpair
      rcases hpair with rfl | hold
      · exact hcollection
      · exact h.collection pair hold
    · intro pair hpair named hnamed
      rcases hpair with rfl | hold
      · refine hbelow named ?_
        unfold liveIds
        rw [hcheckpoint]
        exact hnamed
      · exact hids pair hold named hnamed
    · intro other hother
      rw [hcheckpoint] at hother
      cases hother
      exact Set.mem_insert _ _

end History

/-! ### What a fingerprint stands for -/

structure LexicalJob.Known (inputs : Set LexicalInputs) (known : Set (Checkpoint × List Segment))
    (job : LexicalJob) : Prop where
  inputs : job.inputs ∈ inputs
  state : (job.checkpoint, job.segments) ∈ known

theorem LexicalJob.Known.mono {inputs : Set LexicalInputs}
    {known known' : Set (Checkpoint × List Segment)} {job : LexicalJob}
    (h : job.Known inputs known) (hsubset : known ⊆ known') : job.Known inputs known' :=
  ⟨h.inputs, hsubset h.state⟩

/-- What determines an index among the known states. -/
structure Separates (inputs : Set LexicalInputs) (known : Set (Checkpoint × List Segment)) :
    Prop where
  fingerprints : inputs.InjOn LexicalInputs.fingerprint
  functional : ∀ checkpoint segments segments', (checkpoint, segments) ∈ known →
    (checkpoint, segments') ∈ known → segments = segments'

theorem Separates.job_eq {inputs : Set LexicalInputs} {known : Set (Checkpoint × List Segment)}
    {job other : LexicalJob} (h : Separates inputs known)
    (hjob : job.Known inputs known) (hother : other.Known inputs known)
    (hfingerprint : job.fingerprint = other.fingerprint) : job = other := by
  have hinputs : job.inputs = other.inputs :=
    h.fingerprints hjob.inputs hother.inputs hfingerprint
  obtain ⟨checkpoint, segments, fields, analyzer⟩ := job
  obtain ⟨checkpoint', segments', fields', analyzer'⟩ := other
  obtain ⟨rfl, hrest⟩ := Prod.mk.inj hinputs
  obtain ⟨rfl, rfl⟩ := Prod.mk.inj hrest
  have hsegments : segments = segments' := h.functional _ _ _ hjob.state hother.state
  rw [hsegments]

section Stands

variable [Unicode] [LexicalArith] (inputs : Set LexicalInputs)
  (known : Set (Checkpoint × List Segment))

/-- The index of a known state under its fingerprint. -/
def StandsFor (fingerprint : UInt64) (index : LexicalIndex) : Prop :=
  ∃ job : LexicalJob, job.Known inputs known ∧ job.fingerprint = fingerprint ∧
    job.build = .ok index

/-- The snapshot of that index. -/
def StoredAs (fingerprint : UInt64) (bytes : Bytes) : Prop :=
  ∃ index, StandsFor inputs known fingerprint index ∧
    encodeSnapshot (.fromIndex index) = .ok bytes

variable {inputs known} {known' : Set (Checkpoint × List Segment)} {fingerprint : UInt64}
  {index : LexicalIndex} {bytes : Bytes} {job : LexicalJob}

theorem StandsFor.mono (h : StandsFor inputs known fingerprint index) (hsubset : known ⊆ known') :
    StandsFor inputs known' fingerprint index := by
  obtain ⟨job, hknown, hjob⟩ := h
  exact ⟨job, hknown.mono hsubset, hjob⟩

theorem StoredAs.mono (h : StoredAs inputs known fingerprint bytes) (hsubset : known ⊆ known') :
    StoredAs inputs known' fingerprint bytes := by
  obtain ⟨index, hindex, hbytes⟩ := h
  exact ⟨index, hindex.mono hsubset, hbytes⟩

/-- An index found under the fingerprint of a job is the one that the job builds. -/
theorem Separates.build (h : Separates inputs known) (hjob : job.Known inputs known)
    (hindex : StandsFor inputs known job.fingerprint index) : job.build = .ok index := by
  obtain ⟨other, hother, hfingerprint, hbuild⟩ := hindex
  rwa [h.job_eq hjob hother hfingerprint.symm]

/-- A snapshot found under the fingerprint of a job is loaded as the index that the job builds. -/
theorem Separates.readSnapshot (h : Separates inputs known) (hjob : job.Known inputs known)
    (hbytes : StoredAs inputs known job.fingerprint bytes) :
    ∃ index, job.build = .ok index ∧ job.readSnapshot bytes = .ok (.loaded index) := by
  obtain ⟨index, hindex, hencoded⟩ := hbytes
  have hbuild := h.build hjob hindex
  refine ⟨index, hbuild, ?_⟩
  obtain ⟨-, -, -, -, hvalid⟩ := LexicalIndex.build_valid hbuild
  have hdecode := LexicalIndexStore.decodeSnapshot_build hbuild hencoded
  have hfile : ((∅ : Std.ExtTreeMap UInt64 Bytes compare).insert job.fingerprint bytes)[
      lexicalCheckpointFingerprint job.checkpoint job.fields job.analyzer]? = some bytes :=
    Std.ExtTreeMap.getElem?_insert_self
  refine (LexicalIndexStore.load_of_file job.segments hbuild hfile hdecode).trans ?_
  rw [LexicalSnapshot.hydrate_fromIndex hvalid]

end Stands

/-! ### What a query finds with the index of its state -/

namespace LexicalJob

/-- The job is what the stored index of this runtime stands for. -/
structure Current (job : LexicalJob) (runtime : CollectionRuntime) : Prop where
  mutable : runtime.mutable = []
  checkpoint : runtime.checkpoint = some job.checkpoint
  segments : job.segments = runtime.segments
  fields : job.fields = runtime.configuredLexicalFields
  analyzer : job.analyzer = runtime.configuredLexicalAnalyzer

theorem current_of_lexicalJob {runtime : CollectionRuntime} {job : LexicalJob}
    (h : runtime.lexicalJob = some job) : job.Current runtime := by
  obtain ⟨checkpoint, hcheckpoint, rfl⟩ := Option.map_eq_some_iff.mp h
  unfold CollectionRuntime.indexedCheckpoint at hcheckpoint
  split at hcheckpoint
  · cases hcheckpoint
  · rename_i hmutable
    split at hcheckpoint
    · cases hcheckpoint
    · rename_i found hfound
      split at hcheckpoint
      · cases hcheckpoint
      · cases hcheckpoint
        exact ⟨not_not.mp hmutable, hfound, rfl, rfl, rfl⟩

end LexicalJob

section Answer

variable [Unicode] [LexicalArith] {S : Type} [ScoreArith S] {runtime : CollectionRuntime}
  {request : QueryV1Request} {prepared : PreparedQuery} {job : LexicalJob} {index : LexicalIndex}

/-- The answer with the index of the job is the answer with a fresh one. -/
theorem answer_of_build (hprepared : prepare runtime request = .ok prepared)
    (hjob : job.Current runtime) (hcollection : request.collectionId = job.checkpoint.collectionId)
    (hbuild : job.build = .ok index) (control : QueryControl) :
    answer S runtime request prepared control (.ok (some index)) =
      answer S runtime request prepared control (.ok none) := by
  obtain ⟨hsegments, hfields, hanalyzer, -⟩ := prepare_ok hprepared
  have hlive : prepared.segments = job.segments := by
    unfold CollectionRuntime.querySegments at hsegments
    rw [if_pos hjob.mutable] at hsegments
    exact (Except.ok.inj hsegments).symm.trans hjob.segments.symm
  have hfresh : LexicalIndex.build prepared.segments request.collectionId prepared.query.fields
      prepared.query.analyzer 0 = .ok { index with sourceFingerprint := 0 } := by
    rw [hlive, hcollection, hfields, hanalyzer, ← hjob.fields, ← hjob.analyzer]
    exact LexicalIndexStore.build_withFingerprint hbuild 0
  have hsearch : searchIndex S runtime request prepared { index with sourceFingerprint := 0 }
      control = searchIndex S runtime request prepared index control := rfl
  unfold answer buildForQuery
  cases hcontrol : control.check with
  | error error => rfl
  | ok value =>
    rw [hfresh]
    exact congrArg (fun hits : Except QueryV1Error (List (QueryV1Hit S)) => do
      let hits ← hits
      pure (if request.rerankTopN.isSome then hits else hits.take request.topK)) hsearch.symm

end Answer

end Ketebe
