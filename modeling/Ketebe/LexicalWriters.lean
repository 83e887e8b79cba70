import Ketebe.Lib.Frame
import Ketebe.WriteService

/-!
The sections of the write service that hold the catalog lock. Whatever faults one
of them meets, it keeps the live segments with their checkpoint or replaces them
under a checkpoint that names a new segment, so a checkpoint always stands for
the same segments.
-/
namespace Ketebe

open Lib.ByteCodec Lib.Durable Lib.Durable.Program Lib.Frame

namespace WriteService

variable {F : Type} (state : AppState F)

inductive LockedSection where
  | upsertBatch (records : List PendingRecord)
  | delete (recordId : RecordId)
  | sealCollection
  | compactCollection
  | updateLexicalSchema (fields : List FieldPath) (analyzer : LexicalAnalyzerConfig)

def appendBatch (runtime : CollectionRuntime) (batch : List PendingMutation) :
    Program (Store F) WriteError Unit :=
  appendMutations runtime (numberFrom runtime.nextSequence batch).1
    (numberFrom runtime.nextSequence batch).2

/-- The configuration with other lexical fields; ingestion keeps its own field. -/
def updatedConfig (existing : CollectionConfig) (fields : List FieldPath)
    (analyzer : LexicalAnalyzerConfig) : Except WriteError CollectionConfig := do
  let config ← (CollectionConfig.new state.collectionId existing.dimension
    existing.distanceMetric).mapError fun error => WriteError.validation error.display
  let updated := (config.withLexicalFields fields).withLexicalAnalyzer analyzer
  match existing.ingestion with
  | some ingestion => pure (updated.withIngestion ingestion)
  | none => pure updated

def updateLexicalSchema (fields : List FieldPath) (analyzer : LexicalAnalyzerConfig) :
    Program (Store F) WriteError Unit := do
  let runtime ← currentRuntime state
  match runtime.config with
  | none => throw .collectionNotWritable
  | some existing => do
    let config ← lift (updatedConfig state existing fields analyzer)
    durable (.io "collection configuration was not persisted")
      (Store.updateDir fun dir => { dir with config := config })
    updateRuntime fun runtime => { runtime with config := some config }

variable (S : Type) [ScoreArith S]

def lockedSection : LockedSection → Program (Store F) WriteError Unit
  | .upsertBatch records =>
      if records = [] then throw .emptyBatch
      else do
        let runtime ← currentRuntime state
        let batch ← lift (upsertMutations state runtime records)
        appendBatch runtime batch
  | .delete recordId => do
      let runtime ← currentRuntime state
      if runtime.config.isNone then throw .collectionNotWritable
      else appendBatch runtime [.delete state.collectionId recordId]
  | .sealCollection => do
      let _ ← sealCollection state S
  | .compactCollection => do
      let _ ← compactAdmitted state S
  | .updateLexicalSchema fields analyzer => updateLexicalSchema state fields analyzer

end WriteService

/-! ### What stays -/

/-- The checkpoint and the live segments. -/
def CollectionRuntime.live (runtime : CollectionRuntime) : Option Checkpoint × List Segment :=
  (runtime.checkpoint, runtime.segments)

/-- The largest segment id on disk does not fall. -/
def KeepsIds {F : Type} (start next : Store F) : Prop :=
  ∀ segment ∈ start.dir.segments.files, ∃ later ∈ next.dir.segments.files, segment.id ≤ later.id

theorem KeepsIds.trans {F : Type} {start middle next : Store F} (h : KeepsIds start middle)
    (h' : KeepsIds middle next) : KeepsIds start next := by
  intro segment hsegment
  obtain ⟨later, hlater, hle⟩ := h segment hsegment
  obtain ⟨last, hlast, hle'⟩ := h' later hlater
  exact ⟨last, hlast, hle.trans hle'⟩

structure Keeps {F : Type} (start next : Store F) : Prop where
  ids : KeepsIds start next
  live : next.runtime.map CollectionRuntime.live = start.runtime.map CollectionRuntime.live

namespace Keeps

variable {F : Type} {start middle next : Store F}

theorem refl (start : Store F) : Keeps start start :=
  ⟨fun segment hsegment => ⟨segment, hsegment, le_refl _⟩, rfl⟩

theorem trans (h : Keeps start middle) (h' : Keeps middle next) : Keeps start next :=
  ⟨h.ids.trans h'.ids, h'.live.trans h.live⟩

theorem updateDir {update : CollectionDir F → CollectionDir F}
    (h : (update start.dir).segments = start.dir.segments) :
    Keeps start (start.updateDir update) := by
  refine ⟨fun segment hsegment => ⟨segment, ?_, le_refl _⟩, rfl⟩
  show segment ∈ (update start.dir).segments.files
  rwa [h]

theorem updateRuntime {update : CollectionRuntime → CollectionRuntime}
    (h : ∀ runtime, (update runtime).live = runtime.live) :
    Keeps start (start.updateRuntime update) := by
  refine ⟨fun segment hsegment => ⟨segment, hsegment, le_refl _⟩, ?_⟩
  show (start.runtime.map update).map CollectionRuntime.live = _
  cases start.runtime with
  | none => rfl
  | some runtime => exact congrArg some (h runtime)

end Keeps
/-! ### What each program keeps -/

section Parts

open WriteService AppState

variable {F : Type} {ε : Type}

theorem within_openWal (scope : Option DataPlaneScope) :
    Within Keeps (openWal scope : Program (Store F) ArtifactError _) := by
  refine within_bind within_get fun store => within_bind (within_lift _) fun wal => ?_
  refine within_bind (within_durable fun _ => .updateDir rfl) fun _ => ?_
  exact within_bind (within_lift _) fun _ => within_bind (within_lift _) fun _ => within_pure _

theorem within_reopenWal (runtime : CollectionRuntime) :
    Within Keeps (reopenWal runtime : Program (Store F) WriteError Unit) :=
  within_bind (within_mapError (within_openWal _)) fun _ =>
    within_modify fun _ => .updateRuntime fun _ => rfl

theorem within_reclaimWal (runtime : CollectionRuntime) :
    Within Keeps (reclaimWal runtime : Program (Store F) WriteError Unit) := by
  unfold reclaimWal
  split
  · exact within_throw _
  · refine within_bind (within_modify fun _ => .updateRuntime fun _ => rfl) fun _ => ?_
    refine within_bind (within_handle ?_ fun error => ?_) fun _ => within_reopenWal runtime
    · exact within_bind (within_lift _) fun _ => within_durable fun _ => .updateDir rfl
    · exact within_bind (within_handle (within_reopenWal runtime) fun _ => within_pure _) fun _ =>
        within_throw _

theorem within_appendBatch (runtime : CollectionRuntime) (batch : List PendingMutation) :
    Within Keeps (appendBatch runtime batch : Program (Store F) WriteError Unit) := by
  refine within_bind within_get fun store => within_bind (within_lift _) fun log => ?_
  exact within_bind (within_durableAtomic fun _ => .updateDir rfl) fun _ =>
    within_modify fun _ => .updateRuntime fun _ => rfl

variable (state : AppState F)

theorem within_currentRuntime : Within Keeps (currentRuntime state) := by
  refine within_bind within_get fun store => ?_
  cases store.runtime with
  | none => exact within_throw _
  | some runtime => exact within_pure _

theorem within_updateLexicalSchema (fields : List FieldPath) (analyzer : LexicalAnalyzerConfig) :
    Within Keeps (updateLexicalSchema state fields analyzer) := by
  refine within_bind (within_currentRuntime state) fun runtime => ?_
  cases runtime.config with
  | none => exact within_throw _
  | some existing =>
    refine within_bind (within_lift _) fun config => ?_
    exact within_bind (within_durable fun _ => .updateDir rfl) fun _ =>
      within_modify fun _ => .updateRuntime fun _ => rfl

theorem within_checkDiscovered (runtime : CollectionRuntime) :
    Within Keeps (checkDiscovered runtime : Program (Store F) WriteError Unit) :=
  within_bind within_get fun _ => within_lift _

variable (S : Type) [ScoreArith S]

theorem within_refreshHnsw (runtime : CollectionRuntime) (checkpoint : Checkpoint) :
    Within Keeps (refreshHnsw state S runtime checkpoint) := by
  refine within_bind (within_handle ?_ fun _ => within_pure _) fun hnsw =>
    within_modify fun _ => .updateRuntime fun _ => rfl
  refine within_bind ?_ fun index => within_pure _
  refine within_bind (within_attempt Keeps.refl _) fun _ => within_bind (within_lift _) fun index => ?_
  exact within_bind (within_durable fun _ => .updateDir rfl) fun _ => within_pure _

end Parts

/-! ### What a section replaces -/

section Sections

open WriteService

variable {F : Type} (state : AppState F)

/-- No live segment is newer than all segments on disk. -/
def Bounded (store : Store F) (runtime : CollectionRuntime) : Prop :=
  ∀ id ∈ liveIds runtime, ∃ segment ∈ store.dir.segments.files, id ≤ segment.id

/-- The checkpoint names a segment that was not on disk at the start. -/
def Renewed (start : Store F) (runtime : CollectionRuntime) : Prop :=
  ∃ checkpoint, runtime.checkpoint = some checkpoint ∧
    checkpoint.collectionId = state.collectionId ∧
    ∃ id ∈ checkpoint.segments, ∀ segment ∈ start.dir.segments.files, segment.id < id

structure Advances (start next : Store F) : Prop where
  ids : KeepsIds start next
  live : ∀ runtime, start.runtime = some runtime → Bounded start runtime →
    ∃ later, next.runtime = some later ∧ Bounded next later ∧
      (later.live = runtime.live ∨ Renewed state start later)

variable {state} {start middle next : Store F} {runtime later : CollectionRuntime} {β : Type}

theorem liveIds_of_live (h : later.live = runtime.live) : liveIds later = liveIds runtime := by
  have hcheckpoint : later.checkpoint = runtime.checkpoint := congrArg Prod.fst h
  have hsegments : later.segments = runtime.segments := congrArg Prod.snd h
  unfold liveIds
  rw [hcheckpoint, hsegments]

theorem KeepsIds.bounded (h : KeepsIds start next) (hlive : later.live = runtime.live)
    (hbounded : Bounded start runtime) : Bounded next later := by
  intro id hid
  rw [liveIds_of_live hlive] at hid
  obtain ⟨segment, hsegment, hle⟩ := hbounded id hid
  obtain ⟨last, hlast, hle'⟩ := h segment hsegment
  exact ⟨last, hlast, hle.trans hle'⟩

theorem Keeps.running (h : Keeps start next) (hruntime : start.runtime = some runtime) :
    ∃ later, next.runtime = some later ∧ later.live = runtime.live := by
  have hlive := h.live
  rw [hruntime] at hlive
  exact Option.map_eq_some_iff.mp hlive

theorem Keeps.advances (h : Keeps start next) : Advances state start next := by
  refine ⟨h.ids, fun runtime hruntime hbounded => ?_⟩
  obtain ⟨later, hlater, hlive⟩ := h.running hruntime
  exact ⟨later, hlater, h.ids.bounded hlive hbounded, .inl hlive⟩

theorem Advances.keeps (h : Advances state start middle) (h' : Keeps middle next) :
    Advances state start next := by
  refine ⟨h.ids.trans h'.ids, fun runtime hruntime hbounded => ?_⟩
  obtain ⟨between, hbetween, hbelow, hcase⟩ := h.live runtime hruntime hbounded
  obtain ⟨later, hlater, hlive⟩ := h'.running hbetween
  refine ⟨later, hlater, h'.ids.bounded hlive hbelow, ?_⟩
  rcases hcase with hsame | ⟨checkpoint, hcheckpoint, hrenewed⟩
  · exact .inl (hlive.trans hsame)
  · have hkept : later.checkpoint = between.checkpoint := congrArg Prod.fst hlive
    exact .inr ⟨checkpoint, hkept.trans hcheckpoint, hrenewed⟩

/-- The runtime is replaced under a checkpoint that adds a newly published segment
to the live ones or stands for it alone. -/
theorem Advances.replace {id : SegmentId} {checkpoint : Checkpoint}
    (hid : start.dir.segments.nextSegmentId = some id) (hids : KeepsIds start middle)
    (hmiddle : middle.runtime = some runtime)
    (hpublished : ∃ segment ∈ middle.dir.segments.files, id ≤ segment.id)
    (hrunning : start.runtime = some runtime) (hcheckpoint : later.checkpoint = some checkpoint)
    (hcollection : checkpoint.collectionId = state.collectionId)
    (hnamed : id ∈ checkpoint.segments)
    (hlive : ∀ other ∈ checkpoint.segments, other ∈ liveIds runtime ∨ other = id) :
    Advances state start (middle.updateRuntime fun _ => later) := by
  refine ⟨hids, fun other hother hbounded => ?_⟩
  cases hrunning.symm.trans hother
  refine ⟨later, ?_, fun named hnamed => ?_, .inr ⟨checkpoint, hcheckpoint, hcollection, id, hnamed,
    SegmentStore.lt_nextSegmentId hid⟩⟩
  · rw [Store.updateRuntime, hmiddle]
    rfl
  · unfold liveIds at hnamed
    rw [hcheckpoint] at hnamed
    rcases hlive named hnamed with hold | rfl
    · obtain ⟨segment, hsegment, hle⟩ := hbounded named hold
      obtain ⟨last, hlast, hle'⟩ := hids segment hsegment
      exact ⟨last, hlast, hle.trans hle'⟩
    · exact hpublished

/-! ### Sealing and compaction -/

theorem allocateSegmentId_ensures {P : Store F → Prop} {f : SegmentId → Program (Store F) WriteError β}
    (hkeeps : ∀ next, Keeps start next → P next)
    (hf : ∀ id, start.dir.segments.nextSegmentId = some id →
      (f id).Ensures (unlessCrashed P) start) :
    (allocateSegmentId state runtime >>= f).Ensures (unlessCrashed P) start := by
  have hstart : P start := hkeeps start (.refl start)
  apply ensures_bind
  unfold allocateSegmentId
  split
  · exact ensures_throw hstart
  · refine ensures_bind (ensures_attempt ?_ hstart trivial)
    refine ensures_bind (ensures_getBind (ensures_lift (fun _ _ => ?_) fun _ _ => hstart))
    refine ensures_getBind ?_
    cases hnext : start.dir.segments.nextSegmentId with
    | none => exact ensures_throw hstart
    | some id => exact ensures_pure (hf id hnext)

/-- Publishing adds the file, or fails with or without it. -/
theorem publishSegment_ensures {segment : Segment} {P : Store F → Prop}
    {f : Unit → Program (Store F) WriteError β} (hkeeps : ∀ next, Keeps start next → P next)
    (hf : (f ()).Ensures (unlessCrashed P) (start.updateDir fun dir =>
      { dir with segments := dir.segments.publish segment })) :
    (publishSegment runtime segment >>= f).Ensures (unlessCrashed P) start := by
  have hstart : P start := hkeeps start (.refl start)
  have hpublished : P (start.updateDir fun dir =>
      { dir with segments := dir.segments.publish segment }) := by
    refine hkeeps _ ⟨fun other hother => ⟨other, List.mem_append_left _ hother, le_refl _⟩, rfl⟩
  apply ensures_bind
  refine ensures_bind (ensures_lift (fun _ _ => ensures_getBind ?_) fun _ _ => hstart)
  split
  · exact ensures_throw hstart
  · exact ensures_durable hf hstart hpublished trivial trivial

/-- The segment files stay as they are. -/
structure KeepsFiles (start next : Store F) : Prop where
  files : next.dir.segments = start.dir.segments
  runtime : next.runtime = start.runtime

theorem within_publishCheckpoint (runtime : CollectionRuntime) (checkpoint : Checkpoint) :
    Within KeepsFiles (publishCheckpoint runtime checkpoint : Program (Store F) WriteError Unit) := by
  refine within_bind within_get fun store => within_bind (within_lift _) fun _ => ?_
  exact within_bind (within_lift _) fun _ => within_durable fun _ => ⟨rfl, rfl⟩

/-- From the published segment on: the checkpoint, the runtime, and what follows. -/
theorem adopt_ensures {segment : Segment} {checkpoint : Checkpoint} {updated : CollectionRuntime}
    {f : Unit → Program (Store F) WriteError β}
    (hid : start.dir.segments.nextSegmentId = some segment.id)
    (hrunning : start.runtime = some runtime) (hcheckpoint : updated.checkpoint = some checkpoint)
    (hcollection : checkpoint.collectionId = state.collectionId)
    (hnamed : segment.id ∈ checkpoint.segments)
    (hlive : ∀ other ∈ checkpoint.segments, other ∈ liveIds runtime ∨ other = segment.id)
    (hf : ∀ next, Advances state start next → segment ∈ next.dir.segments.files →
      (∀ other ∈ next.dir.segments.files, other.id ≤ segment.id) →
        (f ()).Ensures (unlessCrashed (Advances state start)) next) :
    (do
      publishSegment runtime segment
      publishCheckpoint runtime checkpoint
      updateRuntime fun _ => updated
      f ()).Ensures (unlessCrashed (Advances state start)) start := by
  refine publishSegment_ensures (fun next hnext => hnext.advances) ?_
  have hpublished (next : Store F) (hfiles : next.dir.segments = start.dir.segments.publish segment)
      (hruntime : next.runtime = start.runtime) : Keeps start next := by
    refine ⟨fun other hother => ⟨other, ?_, le_refl _⟩, by rw [hruntime]⟩
    rw [hfiles]
    exact List.mem_append_left _ hother
  refine (within_publishCheckpoint runtime checkpoint).bind_ensures (P := fun next =>
      next.dir.segments = start.dir.segments.publish segment ∧ next.runtime = start.runtime)
    (fun middle next hmiddle hnext =>
      ⟨hnext.files.trans hmiddle.1, hnext.runtime.trans hmiddle.2⟩) ⟨rfl, rfl⟩
    (fun next hnext => (hpublished next hnext.1 hnext.2).advances) ?_
  intro _ middle hmiddle
  have hmem : segment ∈ middle.dir.segments.files := by
    rw [hmiddle.1]
    exact List.mem_append_right _ (List.mem_singleton_self _)
  refine ensures_bind (ensures_modify (hf _ ?_ hmem fun other hother => ?_))
  · exact .replace hid (hpublished middle hmiddle.1 hmiddle.2).ids (hmiddle.2.trans hrunning)
      ⟨segment, hmem, le_refl _⟩ hrunning hcheckpoint hcollection hnamed hlive
  · have hother : other ∈ middle.dir.segments.files := hother
    rw [hmiddle.1] at hother
    rcases List.mem_append.mp hother with hold | hnew
    · exact (SegmentStore.lt_nextSegmentId hid other hold).le
    · rw [List.mem_singleton.mp hnew]

theorem sealMutable_ensures (S : Type) [ScoreArith S] (hrunning : start.runtime = some runtime) :
    (sealMutable state S runtime).Ensures (unlessCrashed (Advances state start)) start := by
  refine allocateSegmentId_ensures (fun next hnext => hnext.advances) fun id hid => ?_
  refine ensures_bind (ensures_lift (fun segment hsegment => ?_)
    fun _ _ => (Keeps.refl start).advances)
  obtain ⟨rfl, -⟩ := Segment.fromMutations_summarizes (mapError_ok_iff.mp hsegment)
  have hadopted : (sealedRuntime runtime segment
      (sealedCheckpoint state runtime segment)).checkpoint =
        some (sealedCheckpoint state runtime segment) := rfl
  have hcollection : (sealedCheckpoint state runtime segment).collectionId = state.collectionId :=
    rfl
  refine adopt_ensures (f := fun _ => do
      reclaimWal (sealedRuntime runtime segment (sealedCheckpoint state runtime segment))
      refreshHnsw state S (sealedRuntime runtime segment (sealedCheckpoint state runtime segment))
        (sealedCheckpoint state runtime segment)
      pure (sealedCheckpoint state runtime segment))
    hid hrunning hadopted hcollection ?_ (fun other hother => ?_) fun next hnext _ _ => ?_
  · exact Checkpoint.mem_segments_new.mpr (List.mem_append_right _ (List.mem_singleton_self _))
  · rcases List.mem_append.mp (Checkpoint.mem_segments_new.mp hother) with hold | hnew
    · exact .inl hold
    · exact .inr (List.mem_singleton.mp hnew)
  · exact within_bind (within_reclaimWal _) (fun _ => within_bind (within_refreshHnsw state S _ _)
      fun _ => within_pure _) _ (fun _ _ hmiddle hnext => hmiddle.keeps hnext) next hnext

/-- Collecting removes only files older than the one that stays. -/
theorem garbageCollect_ensures {segment : Segment} {caller : CollectionRuntime}
    {retained : List SegmentId} {f : Unit → Program (Store F) WriteError β}
    (hadvances : Advances state start next) (hmem : segment ∈ next.dir.segments.files)
    (hnewest : ∀ other ∈ next.dir.segments.files, other.id ≤ segment.id)
    (hretained : segment.id ∈ retained) (hf : Within Keeps (f ())) :
    (garbageCollect caller retained >>= f).Ensures (unlessCrashed (Advances state start)) next := by
  have hdelete (last : Store F) (id : SegmentId) (hid : id ∉ retained)
      (hadvances : Advances state start last) (hmem : segment ∈ last.dir.segments.files)
      (hnewest : ∀ other ∈ last.dir.segments.files, other.id ≤ segment.id) :
      Advances state start (last.updateDir fun dir =>
        { dir with segments := dir.segments.deleteSegment id }) ∧
        segment ∈ (last.dir.segments.deleteSegment id).files := by
    have hkept : segment ∈ (last.dir.segments.deleteSegment id).files := by
      refine List.mem_filter.mpr ⟨hmem, decide_eq_true fun heq => hid ?_⟩
      rwa [← heq]
    refine ⟨hadvances.keeps ⟨fun other hother => ⟨segment, hkept, hnewest other hother⟩, rfl⟩, hkept⟩
  apply ensures_bind
  refine ensures_bind (ensures_getBind (ensures_lift (fun _ _ => ensures_getBind ?_)
    fun _ _ => hadvances))
  refine ensures_forEach (I := fun last => Advances state start last ∧
    segment ∈ last.dir.segments.files ∧
      ∀ other ∈ last.dir.segments.files, other.id ≤ segment.id)
    ⟨hadvances, hmem, hnewest⟩ (fun id _ last hlast => ?_) fun last hlast =>
      hf _ (fun _ _ hmiddle hnext => hmiddle.keeps hnext) last hlast.1
  obtain ⟨hbefore, hsegment, hbelow⟩ := hlast
  split
  · exact ensures_pure ⟨hbefore, hsegment, hbelow⟩
  · rename_i hid
    obtain ⟨hafter, hkept⟩ := hdelete last id hid hbefore hsegment hbelow
    refine ensures_durable ⟨hafter, hkept, fun other hother => ?_⟩ hbefore hafter trivial trivial
    exact hbelow other (List.mem_filter.mp hother).1

theorem compactLocked_ensures (S : Type) [ScoreArith S] (hrunning : start.runtime = some runtime) :
    (compactLocked state S runtime).Ensures (unlessCrashed (Advances state start)) start := by
  have hstart : Advances state start start := (Keeps.refl start).advances
  refine allocateSegmentId_ensures (fun next hnext => hnext.advances) fun id hid => ?_
  refine ensures_bind (ensures_lift (fun _ _ => ?_) fun _ _ => hstart)
  refine ensures_bind (ensures_lift (fun replacement hreplacement => ?_) fun _ _ => hstart)
  obtain rfl := compactSegments_id (mapError_ok_iff.mp hreplacement)
  have hadopted : (compactedRuntime runtime replacement
      (compactedCheckpoint state runtime replacement)).checkpoint =
        some (compactedCheckpoint state runtime replacement) := rfl
  have hcollection : (compactedCheckpoint state runtime replacement).collectionId =
      state.collectionId := rfl
  have hnamed : replacement.id ∈ (compactedCheckpoint state runtime replacement).segments :=
    Checkpoint.mem_segments_new.mpr (List.mem_singleton_self _)
  refine adopt_ensures (f := fun _ => do
      garbageCollect runtime (compactedCheckpoint state runtime replacement).segments
      refreshHnsw state S
        (compactedRuntime runtime replacement (compactedCheckpoint state runtime replacement))
        (compactedCheckpoint state runtime replacement)
      pure (compactedCheckpoint state runtime replacement))
    hid hrunning hadopted hcollection hnamed (fun other hother => ?_)
    fun next hnext hmem hnewest => ?_
  · exact .inr (List.mem_singleton.mp (Checkpoint.mem_segments_new.mp hother))
  · exact garbageCollect_ensures hnext hmem hnewest hnamed
      (within_bind (within_refreshHnsw state S _ _) fun _ => within_pure _)

/-- Whatever a locked section meets, it keeps the live segments or renews their checkpoint. -/
theorem lockedSection_ensures (S : Type) [ScoreArith S] (start : Store F)
    (lockedSection : LockedSection) :
    (WriteService.lockedSection state S lockedSection).Ensures
      (unlessCrashed (Advances state start)) start := by
  have hstart : Advances state start start := (Keeps.refl start).advances
  have hquiet {program : Program (Store F) WriteError Unit} (h : Within Keeps program) :
      program.Ensures (unlessCrashed (Advances state start)) start :=
    h _ (fun _ _ hmiddle hnext => hmiddle.keeps hnext) start hstart
  have hcurrent {α : Type} {f : CollectionRuntime → Program (Store F) WriteError α}
      (hf : ∀ runtime, start.runtime = some runtime →
        (f runtime).Ensures (unlessCrashed (Advances state start)) start) :
      (currentRuntime state >>= f).Ensures (unlessCrashed (Advances state start)) start := by
    refine ensures_bind (ensures_getBind ?_)
    cases hruntime : start.runtime with
    | none => exact ensures_throw hstart
    | some runtime => exact ensures_pure (hf runtime hruntime)
  have hdiscard {α : Type} {program : Program (Store F) WriteError α}
      (h : program.Ensures (unlessCrashed (Advances state start)) start) :
      (do let _ ← program).Ensures (unlessCrashed (Advances state start)) start :=
    ensures_bind (h.mono (fun _ _ hnext => ensures_pure hnext) (fun _ _ hnext => hnext)
      fun _ hnext => hnext)
  cases lockedSection with
  | upsertBatch records =>
    rw [WriteService.lockedSection]
    by_cases hrecords : records = []
    · rw [if_pos hrecords]
      exact hquiet (within_throw _)
    · rw [if_neg hrecords]
      exact hquiet (within_bind (within_currentRuntime state) fun _ =>
        within_bind (within_lift _) fun _ => within_appendBatch _ _)
  | delete recordId =>
    refine hquiet (within_bind (within_currentRuntime state) fun runtime => ?_)
    split
    · exact within_throw _
    · exact within_appendBatch _ _
  | sealCollection =>
    refine hdiscard (hcurrent fun runtime hruntime => ?_)
    split
    · exact ensures_throw hstart
    · split
      · exact ensures_pure hstart
      · exact ensures_bind ((sealMutable_ensures S hruntime).mono
          (fun _ _ hnext => ensures_pure hnext) (fun _ _ hnext => hnext) fun _ hnext => hnext)
  | compactCollection =>
    refine hdiscard (hcurrent fun runtime hruntime => ?_)
    split
    · exact ensures_pure hstart
    · exact ensures_bind ((compactLocked_ensures S hruntime).mono
        (fun _ _ hnext => ensures_pure hnext) (fun _ _ hnext => hnext) fun _ hnext => hnext)
  | updateLexicalSchema fields analyzer => exact hquiet (within_updateLexicalSchema state _ _)

end Sections

end Ketebe
