import Ketebe.StoreStep

/-!
The programs of the write service and of recovery take only the steps of a
store, whatever the schedule of faults. Each lemma follows one program: it is
given that the store has been reached and tells which store comes next.
-/
namespace Ketebe

open Lib.ByteCodec Lib.Durable Lib.Durable.Program

namespace StoreStep

open WriteService AppState

variable {F : Type} [DecidableEq F] (S : Type) [ScoreArith S] (state : AppState F)

/-- Steps from the start, which log one of the allowed lists, lead to the store. -/
def Reached (start : Store F) (allowed : List WalMutation → Prop) (store : Store F) : Prop :=
  ∃ logged, allowed logged ∧ Steps S state start logged store

/-- Errors leave a reached store, crashes the directory of one. -/
def progress {ε α : Type} (start : Store F) (allowed : List WalMutation → Prop)
    (ok : α → Store F → Prop) : Post (Store F) ε α :=
  ⟨ok, fun _ store => Reached S state start allowed store,
    fun store => Reached S state start allowed store.down⟩

variable {S state} {ε α : Type} {start store next : Store F} {allowed : List WalMutation → Prop}

theorem Reached.step (h : Reached S state start allowed store)
    (hstep : Step S state store [] next) : Reached S state start allowed next := by
  obtain ⟨logged, hlogged, hsteps⟩ := h
  have hnext := Steps.tail hsteps hstep
  rw [List.append_nil] at hnext
  exact ⟨logged, hlogged, hnext⟩

theorem Reached.down (h : Reached S state start allowed store) :
    Reached S state start allowed store.down := h.step (.stop store)

section Primitive

theorem ensures_check {result : Except ε α} {ok : α → Store F → Prop}
    (h : Reached S state start allowed store) (hok : ∀ value, result = .ok value → ok value store) :
    (lift result).Ensures (progress S state start allowed ok) store :=
  ensures_lift hok fun _ _ => h

theorem ensures_access {error : ε} {ok : Unit → Store F → Prop}
    (h : Reached S state start allowed store) (hok : ok () store) :
    (attempt error).Ensures (progress S state start allowed ok) store :=
  ensures_attempt hok h h.down

theorem ensures_step {error : ε} {write : Store F → Store F} {ok : Unit → Store F → Prop}
    (h : Reached S state start allowed store) (hstep : Step S state store [] (write store))
    (hok : ok () (write store)) :
    (durable error write).Ensures (progress S state start allowed ok) store :=
  ensures_durable hok h (h.step hstep) h.down (h.step hstep).down

theorem ensures_seq {β : Type} {program : Program (Store F) ε α} {f : α → Program (Store F) ε β}
    {ok : β → Store F → Prop}
    (h : program.Ensures (progress S state start allowed fun value next =>
      (f value).Ensures (progress S state start allowed ok) next) store) :
    (program >>= f).Ensures (progress S state start allowed ok) store := ensures_bind h

theorem ensures_currentRuntime {ok : CollectionRuntime → Store F → Prop}
    (h : Reached S state start allowed store)
    (hok : ∀ runtime, store.runtime = some runtime → ok runtime store) :
    (currentRuntime state).Ensures (progress S state start allowed ok) store := by
  refine ensures_getBind ?_
  cases hruntime : store.runtime with
  | none => exact ensures_throw h
  | some runtime => exact ensures_pure (hok runtime hruntime)

end Primitive

/-! ### The index -/

section Hnsw

variable {checkpoint : Checkpoint} {metric : DistanceMetric} {segments : List Segment}

theorem ensures_rebuildHnsw {ok : Option HnswIndex → Store F → Prop}
    (h : Reached S state start allowed store)
    (hsource : Indexable store checkpoint metric segments)
    (hok : ∀ hnsw snapshot, Reached S state start allowed
        (store.updateDir fun dir => { dir with hnsw := snapshot }) →
      (∀ index, hnsw = some index → buildHnsw S checkpoint metric segments = .ok index) →
        ok hnsw (store.updateDir fun dir => { dir with hnsw := snapshot })) :
    (rebuildHnsw S state checkpoint metric segments : Program (Store F) ε _).Ensures
      (progress S state start allowed ok) store := by
  have hbuilt : ∀ index, (buildHnsw S checkpoint metric segments).toOption = some index →
      buildHnsw S checkpoint metric segments = .ok index := by
    intro index hindex
    cases hbuild : buildHnsw S checkpoint metric segments with
    | error error =>
      rw [hbuild] at hindex
      cases hindex
    | ok value =>
      rw [hbuild] at hindex
      cases hindex
      rfl
  have hkeep : ok (buildHnsw S checkpoint metric segments).toOption store :=
    hok _ store.dir.hnsw h hbuilt
  refine ensures_handle (ensures_bind (ensures_bind (ensures_attempt ?_ ?_ h.down)))
  · refine ensures_bind (ensures_lift (fun index hindex => ?_) fun _ _ => ensures_pure hkeep)
    have hstep : Step S state store [] _ := .publishHnsw hsource hindex
    have hsome : ∀ other, some index = some other →
        buildHnsw S checkpoint metric segments = .ok other := by
      rintro _ ⟨⟩
      exact hindex
    refine ensures_bind (ensures_durable ?_ (ensures_pure hkeep) (ensures_pure ?_) h.down
      (h.step hstep).down)
    · exact ensures_pure (ensures_pure (hok _ _ (h.step hstep) hsome))
    · exact hok _ _ (h.step hstep) hbuilt
  · exact ensures_pure hkeep

theorem ensures_refreshHnsw {caller runtime : CollectionRuntime} {ok : Unit → Store F → Prop}
    (h : Reached S state start allowed store) (hruntime : Checkpointed store runtime checkpoint)
    (hmetric : runtime.metric = caller.metric) (hsegments : runtime.segments = caller.segments)
    (hok : ∀ hnsw next, Reached S state start allowed next →
      next.runtime = some { runtime with hnsw := hnsw } → ok () next) :
    (refreshHnsw state S caller checkpoint).Ensures (progress S state start allowed ok) store := by
  refine ensures_seq (ensures_rebuildHnsw h (.running runtime hruntime hmetric hsegments) ?_)
  intro hnsw snapshot hreached hindex
  rw [← hmetric, ← hsegments] at hindex
  have hstored : Checkpointed (store.updateDir fun dir => { dir with hnsw := snapshot }) runtime
      checkpoint := ⟨hruntime.running, hruntime.current, hruntime.stored⟩
  refine ensures_modify (hok hnsw _ (hreached.step (.setHnsw hstored hindex)) ?_)
  rw [Store.updateRuntime, Store.updateDir, hruntime.running]
  rfl

end Hnsw

/-! ### The log -/

section Log

theorem ensures_openWal {scope : Option DataPlaneScope}
    {ok : WalWriter × List WalMutation → Store F → Prop} (h : Reached S state start allowed store)
    (hok : ∀ log replay, Opened store log replay → Reached S state start allowed
        (store.updateDir fun dir => { dir with wal := some log.file }) →
      ok (⟨log.syncPolicy, log.lastSequence⟩, replay.entries)
        (store.updateDir fun dir => { dir with wal := some log.file })) :
    (openWal scope).Ensures (progress S state start allowed ok) store := by
  refine ensures_getBind (ensures_seq (ensures_check h fun log hlog => ?_))
  have hopen := mapError_ok_iff.mp hlog
  have hstep : Step S state store [] _ := .createWal hopen
  refine ensures_seq (ensures_step h hstep (ensures_seq (ensures_check (h.step hstep) ?_)))
  intro replay hreplay
  refine ensures_seq (ensures_check (h.step hstep) fun _ _ => ensures_pure ?_)
  exact hok log replay ⟨hopen, mapError_ok_iff.mp hreplay⟩ (h.step hstep)

/-- Opening a log does not change what opening it finds. -/
theorem openWithPolicy_created {path : Option Bytes} {policy : SyncPolicy} {log : Wal}
    (h : Wal.openWithPolicy path policy = .ok log) :
    Wal.openWithPolicy (some log.file) policy = .ok log := by
  obtain ⟨replay, hreplay, h⟩ := except_bind_ok.mp h
  cases h
  cases path with
  | some bytes => exact except_bind_ok.mpr ⟨replay, hreplay, rfl⟩
  | none =>
    cases hreplay
    exact except_bind_ok.mpr ⟨⟨[], 0⟩, Wal.decodeFrames_nil none, rfl⟩

theorem ensures_reopenWal {caller runtime : CollectionRuntime} {ok : Unit → Store F → Prop}
    (h : Reached S state start allowed store) (hruntime : store.runtime = some runtime)
    (hok : ∀ next, Reached S state start allowed next →
      (∃ writer, next.runtime = some { runtime with wal := writer }) →
        next.dir.checkpoint = store.dir.checkpoint → ok () next) :
    (reopenWal caller).Ensures (progress S state start allowed ok) store := by
  refine ensures_seq (ensures_mapError (ensures_openWal h fun log replay hopened hreached => ?_))
  have hcreated : Wal.openWithPolicy (store.updateDir fun dir =>
      { dir with wal := some log.file }).dir.wal .durable = .ok log :=
    openWithPolicy_created hopened.opens
  refine ensures_modify (hok _ (hreached.step (.openWal hcreated))
    ⟨some ⟨log.syncPolicy, log.lastSequence⟩, ?_⟩ rfl)
  rw [Store.updateRuntime, Store.updateDir, hruntime]
  rfl

theorem ensures_keepWal {caller runtime : CollectionRuntime} {error : WriteError}
    {ok : Unit → Store F → Prop} (h : Reached S state start allowed store)
    (hruntime : store.runtime = some runtime) :
    (keepWal caller error).Ensures (progress S state start allowed ok) store := by
  refine ensures_seq (ensures_handle ?_)
  have hreopen : (reopenWal caller).Ensures
      (progress S state start allowed fun _ next => Reached S state start allowed next) store :=
    ensures_reopenWal h hruntime fun _ hnext _ _ => hnext
  exact hreopen.mono (fun _ _ hnext => ensures_throw hnext)
    (fun _ _ hnext => ensures_pure (ensures_throw hnext)) fun _ hnext => hnext

theorem ensures_reclaimWal {runtime : CollectionRuntime} {checkpoint : Checkpoint}
    {ok : Unit → Store F → Prop} (h : Reached S state start allowed store)
    (hruntime : Checkpointed store runtime checkpoint) (hsealed : runtime.mutable = [])
    (hok : ∀ next writer, Reached S state start allowed next →
      Checkpointed next { runtime with wal := writer } checkpoint → ok () next) :
    (reclaimWal runtime).Ensures (progress S state start allowed ok) store := by
  unfold reclaimWal
  split
  · exact ensures_throw h
  · have hclosed : Checkpointed (store.updateRuntime fun runtime => { runtime with wal := none })
        { runtime with wal := none } checkpoint := by
      refine ⟨?_, hruntime.current, hruntime.stored⟩
      rw [Store.updateRuntime, hruntime.running]
      rfl
    have hreached := h.step (.closeWal store)
    have hreclaim : Step S state (store.updateRuntime fun runtime => { runtime with wal := none })
        [] _ := .reclaimWal hclosed hsealed rfl
    refine ensures_seq (ensures_modify (ensures_seq (ensures_handle ?_)))
    rw [hsealed]
    refine ensures_bind (ensures_lift (fun log hlog => ?_) nofun)
    cases mapError_ok_iff.mp hlog
    refine ensures_durable ?_ (ensures_keepWal hreached hclosed.running)
      (ensures_keepWal (hreached.step hreclaim) hclosed.running) hreached.down
      (hreached.step hreclaim).down
    refine ensures_reopenWal (hreached.step hreclaim) hclosed.running fun next hnext hwriter hdir => ?_
    obtain ⟨writer, hwriter⟩ := hwriter
    exact hok next writer hnext ⟨hwriter, hruntime.current, hdir.trans hclosed.stored⟩

end Log

/-! ### Publishing -/

section Publish

variable {runtime : CollectionRuntime}

theorem ensures_checkDiscovered {ok : Unit → Store F → Prop}
    (h : Reached S state start allowed store) (hok : ok () store) :
    (checkDiscovered runtime).Ensures (progress S state start allowed ok) store :=
  ensures_getBind (ensures_check h fun _ _ => hok)

theorem ensures_allocateSegmentId {ok : SegmentId → Store F → Prop}
    (h : Reached S state start allowed store)
    (hok : ∀ id, store.dir.segments.nextSegmentId = some id → ok id store) :
    (allocateSegmentId state runtime).Ensures (progress S state start allowed ok) store := by
  unfold allocateSegmentId
  split
  · exact ensures_throw h
  · refine ensures_seq (ensures_access h (ensures_seq (ensures_checkDiscovered h ?_)))
    refine ensures_getBind ?_
    cases hnext : store.dir.segments.nextSegmentId with
    | none => exact ensures_throw h
    | some id => exact ensures_pure (hok id hnext)

theorem ensures_publishSegment {segment : Segment} {ok : Unit → Store F → Prop}
    (h : Reached S state start allowed store)
    (hstep : Step S state store [] (store.updateDir fun dir =>
      { dir with segments := dir.segments.publish segment }))
    (hok : ok () (store.updateDir fun dir =>
      { dir with segments := dir.segments.publish segment })) :
    (publishSegment runtime segment).Ensures (progress S state start allowed ok) store := by
  refine ensures_seq (ensures_check h fun _ _ => ensures_getBind ?_)
  split
  · exact ensures_throw h
  · exact ensures_step h hstep hok

theorem ensures_publishCheckpoint {checkpoint : Checkpoint} {ok : Unit → Store F → Prop}
    (h : Reached S state start allowed store)
    (hstep : Step S state store [] (store.updateDir fun dir =>
      { dir with checkpoint := some checkpoint }))
    (hok : ok () (store.updateDir fun dir => { dir with checkpoint := some checkpoint })) :
    (publishCheckpoint runtime checkpoint).Ensures (progress S state start allowed ok) store := by
  refine ensures_getBind (ensures_seq (ensures_check h fun _ _ => ?_))
  exact ensures_seq (ensures_check h fun _ _ => ensures_step h hstep hok)

/-- What sealing makes of a runtime, whatever becomes of its log and its index. -/
inductive SealedInto (runtime : CollectionRuntime) : CollectionRuntime → Prop
  | empty (hempty : runtime.mutable = []) : SealedInto runtime runtime
  | segment {segment : Segment} {checkpoint : Checkpoint} {wal : Option WalWriter}
      {hnsw : Option HnswIndex}
      (hsegment : Segment.fromMutations segment.id runtime.mutable = .ok segment) :
      SealedInto runtime { sealedRuntime runtime segment checkpoint with wal := wal, hnsw := hnsw }

theorem SealedInto.mutable {after : CollectionRuntime} (h : SealedInto runtime after) :
    after.mutable = [] := by
  cases h with
  | empty hempty => exact hempty
  | segment hsegment => rfl

theorem ensures_sealMutable {ok : Checkpoint → Store F → Prop}
    (h : Reached S state start allowed store) (hruntime : store.runtime = some runtime)
    (hok : ∀ checkpoint next, Reached S state start allowed next →
      (∃ after, next.runtime = some after ∧ SealedInto runtime after) → ok checkpoint next) :
    (sealMutable state S runtime).Ensures (progress S state start allowed ok) store := by
  refine ensures_seq (ensures_allocateSegmentId h fun id hid => ?_)
  refine ensures_seq (ensures_check h fun segment hsegment => ?_)
  have hsource := mapError_ok_iff.mp hsegment
  obtain ⟨rfl, -⟩ := Segment.fromMutations_summarizes hsource
  have hpublish : Step S state store [] _ := .sealSegment ⟨hruntime, hsource⟩ hid
  refine ensures_seq (ensures_publishSegment h hpublish ?_)
  have hreached := h.step hpublish
  generalize hpublished : (store.updateDir fun dir =>
    { dir with segments := dir.segments.publish segment }) = published at hreached ⊢
  have hseals : Seals published runtime segment := ⟨by rw [← hpublished]; exact hruntime, hsource⟩
  have hlast : PublishedLast published segment :=
    ⟨store.dir.segments, hid, by rw [← hpublished]; rfl⟩
  have hcheckpoint : Step S state published [] _ := .sealCheckpoint hseals hlast
  refine ensures_seq (ensures_publishCheckpoint hreached hcheckpoint ?_)
  have hadopt : Step S state (published.updateDir fun dir =>
      { dir with checkpoint := some (sealedCheckpoint state runtime segment) }) [] _ :=
    .sealRuntime ⟨hseals.running, hsource⟩ hlast rfl
  have hcurrent := (hreached.step hcheckpoint).step hadopt
  refine ensures_seq (ensures_modify ?_)
  refine ensures_seq (ensures_reclaimWal hcurrent ⟨?_, rfl, rfl⟩ rfl ?_)
  · rw [Store.updateRuntime, Store.updateDir, hseals.running]
    rfl
  · intro next writer hnext hwriter
    refine ensures_seq (ensures_refreshHnsw hnext hwriter rfl rfl ?_)
    intro hnsw final hfinal hsealed
    exact ensures_pure (hok _ final hfinal ⟨_, hsealed, .segment hsource⟩)

theorem ensures_sealCollection {ok : Option Checkpoint → Store F → Prop}
    (h : Reached S state start allowed store)
    (hok : ∀ checkpoint next, Reached S state start allowed next →
      (∃ runtime after, store.runtime = some runtime ∧ next.runtime = some after ∧
        SealedInto runtime after) → ok checkpoint next) :
    (sealCollection state S).Ensures (progress S state start allowed ok) store := by
  refine ensures_seq (ensures_currentRuntime h fun runtime hruntime => ?_)
  split
  · exact ensures_throw h
  · split
    · rename_i hempty
      exact ensures_pure (hok none store h ⟨runtime, runtime, hruntime, hruntime, .empty hempty⟩)
    · refine ensures_seq (ensures_sealMutable h hruntime fun checkpoint next hnext hsealed => ?_)
      obtain ⟨after, hafter, hsealed⟩ := hsealed
      exact ensures_pure (hok _ next hnext ⟨runtime, after, hruntime, hafter, hsealed⟩)

end Publish

/-! ### Compaction -/

section Compaction

variable {runtime : CollectionRuntime}

/-- Only segments older than a retained one are collected. -/
theorem ensures_garbageCollect {caller : CollectionRuntime} {checkpoint : Checkpoint}
    {replacement : Segment} {ok : Unit → Store F → Prop}
    (h : Reached S state start allowed store) (hruntime : Checkpointed store runtime checkpoint)
    (hlast : PublishedLast store replacement) (hnamed : replacement.id ∈ checkpoint.segments)
    (hok : ∀ next, Reached S state start allowed next →
      Checkpointed next runtime checkpoint → ok () next) :
    (garbageCollect caller checkpoint.segments).Ensures (progress S state start allowed ok) store := by
  obtain ⟨earlier, hid, hearlier⟩ := hlast
  have hbelow : ∀ id ∈ store.dir.segments.listSegmentIds,
      id ∉ checkpoint.segments → id < replacement.id := by
    intro id hmem hnot
    obtain ⟨segment, hsegment, rfl⟩ := SegmentStore.mem_listSegmentIds.mp hmem
    rw [hearlier] at hsegment
    rcases List.mem_append.mp hsegment with hold | hnew
    · exact SegmentStore.lt_nextSegmentId hid segment hold
    · rw [List.mem_singleton.mp hnew] at hnot
      exact absurd hnamed hnot
  have hstart : replacement ∈ store.dir.segments.files := by
    rw [hearlier]
    exact List.mem_append_right _ (List.mem_singleton_self _)
  refine ensures_seq (ensures_checkDiscovered h (ensures_getBind ?_))
  refine ensures_forEach (I := fun next => Reached S state start allowed next ∧
    Checkpointed next runtime checkpoint ∧ replacement ∈ next.dir.segments.files)
    ⟨h, hruntime, hstart⟩ ?_ fun next hnext => hok next hnext.1 hnext.2.1
  rintro id hmem next ⟨hreached, hcurrent, hkept⟩
  split
  · exact ensures_pure ⟨hreached, hcurrent, hkept⟩
  · rename_i hnot
    have hlt := hbelow id hmem hnot
    have hcollect : Step S state next [] _ :=
      .collect hcurrent hnot ⟨replacement, hkept, hlt, hnamed⟩
    refine ensures_step hreached hcollect ⟨hreached.step hcollect,
      ⟨hcurrent.running, hcurrent.current, hcurrent.stored⟩, ?_⟩
    exact List.mem_filter.mpr ⟨hkept, by simpa using hlt.ne'⟩

theorem ensures_compactLocked {ok : Checkpoint → Store F → Prop}
    (h : Reached S state start allowed store) (hruntime : store.runtime = some runtime)
    (hsealed : runtime.mutable = []) (hlen : 2 ≤ runtime.segments.length)
    (hok : ∀ checkpoint next, Reached S state start allowed next → ok checkpoint next) :
    (compactLocked state S runtime).Ensures (progress S state start allowed ok) store := by
  refine ensures_seq (ensures_allocateSegmentId h fun id hid => ?_)
  refine ensures_seq (ensures_check h fun _ _ => ?_)
  refine ensures_seq (ensures_check h fun replacement hreplacement => ?_)
  have hsource := mapError_ok_iff.mp hreplacement
  obtain rfl := compactSegments_id hsource
  have hpublish : Step S state store [] _ := .compactSegment ⟨hruntime, hlen, hsealed, hsource⟩ hid
  refine ensures_seq (ensures_publishSegment h hpublish ?_)
  have hreached := h.step hpublish
  generalize hpublished : (store.updateDir fun dir =>
    { dir with segments := dir.segments.publish replacement }) = published at hreached ⊢
  have hrunning : published.runtime = some runtime := by
    rw [← hpublished]
    exact hruntime
  have hlast : PublishedLast published replacement :=
    ⟨store.dir.segments, hid, by rw [← hpublished]; rfl⟩
  have hcheckpoint : Step S state published [] _ :=
    .compactCheckpoint ⟨hrunning, hlen, hsealed, hsource⟩ hlast
  refine ensures_seq (ensures_publishCheckpoint hreached hcheckpoint ?_)
  have hadopt : Step S state (published.updateDir fun dir =>
      { dir with checkpoint := some (compactedCheckpoint state runtime replacement) }) [] _ :=
    .compactRuntime ⟨hrunning, hlen, hsealed, hsource⟩ hlast rfl
  have hcurrent := (hreached.step hcheckpoint).step hadopt
  have hadopted : Checkpointed (((published.updateDir fun dir => { dir with
      checkpoint := some (compactedCheckpoint state runtime replacement) })).updateRuntime
        fun _ => compactedRuntime runtime replacement
          (compactedCheckpoint state runtime replacement))
      (compactedRuntime runtime replacement (compactedCheckpoint state runtime replacement))
      (compactedCheckpoint state runtime replacement) := by
    refine ⟨?_, rfl, rfl⟩
    rw [Store.updateRuntime, Store.updateDir, hrunning]
    rfl
  refine ensures_seq (ensures_modify (ensures_seq ?_))
  refine ensures_garbageCollect hcurrent hadopted hlast ?_ fun next hnext hstored => ?_
  · exact Checkpoint.mem_segments_new.mpr (List.mem_singleton_self _)
  · refine ensures_seq (ensures_refreshHnsw hnext hstored rfl rfl fun hnsw final hfinal _ => ?_)
    exact ensures_pure (hok _ final hfinal)

theorem ensures_compactCollection {ok : Option Checkpoint → Store F → Prop}
    (h : Reached S state start allowed store)
    (hok : ∀ checkpoint next, Reached S state start allowed next → ok checkpoint next) :
    (compactCollection state S).Ensures (progress S state start allowed ok) store := by
  have hadmitted (next : Store F) (hnext : Reached S state start allowed next)
      (runtime : CollectionRuntime) (hruntime : next.runtime = some runtime)
      (hsealed : runtime.mutable = []) :
      (compactAdmitted state S).Ensures (progress S state start allowed ok) next := by
    refine ensures_seq (ensures_currentRuntime hnext fun current hcurrent => ?_)
    cases hruntime.symm.trans hcurrent
    split
    · exact ensures_pure (hok none next hnext)
    · rename_i hlen
      refine ensures_seq (ensures_compactLocked hnext hruntime hsealed (not_lt.mp hlen) ?_)
      exact fun checkpoint final hfinal => ensures_pure (hok _ final hfinal)
  have hafter (next : Store F) (hnext : Reached S state start allowed next)
      (hsealed : ∃ runtime, next.runtime = some runtime ∧ runtime.mutable = []) :
      (do
        let runtime ← currentRuntime state
        if runtime.segments.length < 2 then pure none
        else do
          attempt (.io "compaction resource admission failed")
          compactAdmitted state S).Ensures (progress S state start allowed ok) next := by
    obtain ⟨runtime, hruntime, hempty⟩ := hsealed
    refine ensures_seq (ensures_currentRuntime hnext fun current _ => ?_)
    split
    · exact ensures_pure (hok none next hnext)
    · exact ensures_seq (ensures_access hnext (hadmitted next hnext runtime hruntime hempty))
  refine ensures_seq (ensures_seq (ensures_currentRuntime h fun runtime hruntime => ?_))
  split
  · exact ensures_throw h
  · split
    · rename_i hempty
      exact ensures_pure (hafter store h ⟨runtime, hruntime, hempty⟩)
    · refine ensures_seq (ensures_sealCollection h fun checkpoint next hnext hsealed => ?_)
      obtain ⟨_, after, _, hruntime, hsealed⟩ := hsealed
      exact ensures_pure (hafter next hnext ⟨after, hruntime, hsealed.mutable⟩)

end Compaction

/-! ### Writing -/

section Write

/-- Nothing is logged, or the whole batch. -/
def Offered (mutations logged : List WalMutation) : Prop := logged = [] ∨ logged = mutations

/-- The numbered batch of an upsert, empty if the call fails before numbering it. -/
def numberedUpsert (state : AppState F) (store : Store F) (records : List PendingRecord) :
    List WalMutation :=
  match store.runtime with
  | none => []
  | some runtime =>
      match upsertMutations state runtime records with
      | .ok batch => (numberFrom runtime.nextSequence batch).1
      | .error _ => []

def numberedDelete (state : AppState F) (store : Store F) (recordId : RecordId) :
    List WalMutation :=
  match store.runtime with
  | none => []
  | some runtime =>
      if runtime.config.isNone then []
      else (numberFrom runtime.nextSequence [.delete state.collectionId recordId]).1

theorem Reached.offered {mutations : List WalMutation}
    (h : Reached S state start (· = mutations) store) :
    Reached S state start (Offered mutations) store := by
  obtain ⟨logged, hlogged, hsteps⟩ := h
  exact ⟨logged, .inr hlogged, hsteps⟩

theorem ensures_sealIfFull (h : Reached S state start allowed store) :
    (sealIfFull state S).Ensures (progress S state start allowed fun _ next =>
      Reached S state start allowed next ∧
        ∃ runtime after, store.runtime = some runtime ∧ next.runtime = some after ∧
          (after = runtime ∨ SealedInto runtime after)) store := by
  refine ensures_seq (ensures_currentRuntime h fun runtime hruntime => ?_)
  split
  · refine ensures_seq (ensures_sealCollection h fun _ next hnext hsealed => ?_)
    obtain ⟨before, after, hbefore, hafter, hsealed⟩ := hsealed
    exact ensures_pure ⟨hnext, before, after, hbefore, hafter, .inr hsealed⟩
  · exact ensures_pure ⟨h, runtime, runtime, hruntime, hruntime, .inl rfl⟩

/-- The runtime behind an acknowledged write: the batch is in the mutable list, which may
have been sealed. -/
def Wrote (store : Store F) (runtime : CollectionRuntime) (batch : List PendingMutation)
    (next : Store F) : Prop :=
  ∃ log after, encodeAppend runtime store.dir (numberFrom runtime.nextSequence batch).1 = .ok log ∧
    next.runtime = some after ∧ ∃ appended, (after = appended ∨ SealedInto appended after) ∧
      appended = { runtime with
        mutable := runtime.mutable ++ (numberFrom runtime.nextSequence batch).1
        wal := some ⟨log.syncPolicy, log.lastSequence⟩
        nextSequence := (numberFrom runtime.nextSequence batch).2 }

theorem ensures_write {runtime : CollectionRuntime} {config : CollectionConfig}
    {batch : List PendingMutation} (hruntime : store.runtime = some runtime)
    (hconfig : runtime.config = some config)
    (hbatch : ∀ pending ∈ batch, pending.Accepted state.collectionId config) :
    (write state S runtime batch).Ensures
      (progress S state store (Offered (numberFrom runtime.nextSequence batch).1) fun _ next =>
        Reached S state store (· = (numberFrom runtime.nextSequence batch).1) next ∧
          Wrote store runtime batch next) store := by
  unfold Wrote
  rcases hnumbered : numberFrom runtime.nextSequence batch with ⟨mutations, last⟩
  have hstart : Reached S state store (Offered mutations) store := ⟨[], .inl rfl, .refl store⟩
  unfold write
  rw [hnumbered]
  refine ensures_seq (ensures_getBind (ensures_seq (ensures_check hstart fun log hlog => ?_)))
  have happends : Appends state store config runtime mutations last log :=
    ⟨hruntime, hconfig, ⟨batch, hbatch, hnumbered⟩, hlog⟩
  have hlogged {next : Store F} (hstep : Step S state store mutations next) :
      Reached S state store (· = mutations) next := ⟨mutations, rfl, .tail (.refl store) hstep⟩
  have hstopped := (hlogged (.appendThenStop happends)).offered
  refine ensures_bind (ensures_durableAtomic ?_ hstart hstart.down hstopped)
  refine ensures_modify (ensures_seq ((ensures_sealIfFull (hlogged (.append happends))).mono ?_ ?_ ?_))
  · rintro _ next ⟨hnext, appended, after, happended, hafter, hinto⟩
    refine ensures_pure ⟨hnext, log, after, hlog, hafter, appended, hinto, ?_⟩
    rw [Store.updateRuntime, Store.updateDir, hruntime] at happended
    exact (Option.some.inj happended).symm
  · exact fun _ _ hnext => hnext.offered
  · exact fun _ hnext => hnext.offered

omit [DecidableEq F] in
theorem accepted_of_prepareBatch {config : CollectionConfig} {records : List PendingRecord}
    {batch : List PendingMutation} (h : prepareBatch state config records = .ok batch) :
    ∀ pending ∈ batch, pending.Accepted state.collectionId config := by
  intro pending hpending
  obtain ⟨record, -, hrecord⟩ := (mem_of_except_mapM h).1 pending hpending
  obtain ⟨vector, hvector, hpure⟩ := except_bind_ok.mp hrecord
  have hvalid := mapError_ok_iff.mp hvector
  obtain ⟨checked, -, hvalid⟩ := except_bind_ok.mp hvalid
  obtain ⟨⟨⟩, hvalidated, hchecked⟩ := except_bind_ok.mp hvalid
  cases hchecked
  cases hpure
  exact ⟨rfl, hvalidated⟩

theorem ensures_upsertBatch (records : List PendingRecord) :
    (upsertBatch state S records).Ensures
      (progress S state store (Offered (numberedUpsert state store records)) fun _ next =>
        Reached S state store (· = numberedUpsert state store records) next) store := by
  have hstart : Reached S state store (Offered (numberedUpsert state store records)) store :=
    ⟨[], .inl rfl, .refl store⟩
  unfold upsertBatch
  split
  · exact ensures_throw hstart
  · refine ensures_seq (ensures_currentRuntime hstart fun runtime hruntime => ?_)
    refine ensures_seq (ensures_check hstart fun batch hbatch => ?_)
    have hnumbered : numberedUpsert state store records =
        (numberFrom runtime.nextSequence batch).1 := by
      simp only [numberedUpsert, hruntime, hbatch]
    rw [hnumbered]
    unfold upsertMutations at hbatch
    cases hconfig : runtime.config with
    | none =>
      rw [hconfig] at hbatch
      cases hbatch
    | some config =>
      rw [hconfig] at hbatch
      exact (ensures_write hruntime hconfig (accepted_of_prepareBatch hbatch)).mono
        (fun _ _ hnext => hnext.1) (fun _ _ hnext => hnext) fun _ hnext => hnext

theorem ensures_delete (recordId : RecordId) :
    (delete state S recordId).Ensures
      (progress S state store (Offered (numberedDelete state store recordId)) fun _ next =>
        Reached S state store (· = numberedDelete state store recordId) next) store := by
  have hstart : Reached S state store (Offered (numberedDelete state store recordId)) store :=
    ⟨[], .inl rfl, .refl store⟩
  refine ensures_seq (ensures_currentRuntime hstart fun runtime hruntime => ?_)
  cases hconfig : runtime.config with
  | none => exact ensures_throw hstart
  | some config =>
    have hnumbered : numberedDelete state store recordId =
        (numberFrom runtime.nextSequence [.delete state.collectionId recordId]).1 := by
      simp only [numberedDelete, hruntime, hconfig, Option.isNone_some, Bool.false_eq_true, if_false]
    have haccepted : ∀ pending ∈ [PendingMutation.delete state.collectionId recordId],
        pending.Accepted state.collectionId config := List.forall_mem_singleton.mpr rfl
    rw [hnumbered]
    refine ensures_seq ((ensures_write hruntime hconfig haccepted).mono
      (fun _ _ hnext => ensures_pure hnext.1) (fun _ _ hnext => hnext) fun _ hnext => hnext)

end Write

/-! ### Recovery -/

section Recovery

theorem ensures_loadHnsw {checkpoint : Checkpoint} {metric : DistanceMetric}
    {ok : HnswLoadResult → Store F → Prop} (h : Reached S state start allowed store)
    (hok : ∀ result, (∀ index, result = .loaded index → DecodedSnapshot.load S state.fingerprint
      ⟨checkpoint, metric, .default⟩ store.dir.hnsw = .ok (.loaded index)) → ok result store) :
    (loadHnsw S state checkpoint metric : Program (Store F) ε _).Ensures
      (progress S state start allowed ok) store := by
  have hmissing : ok .missing store := hok .missing nofun
  refine ensures_handle (ensures_bind (ensures_attempt ?_ (ensures_pure hmissing) h.down))
  refine ensures_getBind (ensures_lift (fun result hresult => hok result ?_) ?_)
  · rintro index rfl
    exact hresult
  · exact fun _ _ => ensures_pure hmissing

theorem ensures_restoreOrRebuildHnsw {checkpoint : Checkpoint} {metric : DistanceMetric}
    {segments : List Segment} {ok : Option HnswIndex → Store F → Prop}
    (h : Reached S state start allowed store)
    (hsource : Indexable store checkpoint metric segments)
    (hok : ∀ hnsw snapshot, Reached S state start allowed
        (store.updateDir fun dir => { dir with hnsw := snapshot }) →
      (∀ index, hnsw = some index → buildHnsw S checkpoint metric segments = .ok index ∨
        DecodedSnapshot.load S state.fingerprint ⟨checkpoint, metric, .default⟩ snapshot =
          .ok (.loaded index)) →
        ok hnsw (store.updateDir fun dir => { dir with hnsw := snapshot })) :
    (restoreOrRebuildHnsw S state checkpoint metric segments : Program (Store F) ε _).Ensures
      (progress S state start allowed ok) store := by
  have hnone : ok none store := hok none store.dir.hnsw h fun _ hsome => by cases hsome
  refine ensures_seq (ensures_handle (ensures_bind (ensures_attempt (ensures_pure ?_)
    (ensures_pure (ensures_pure hnone)) h.down)))
  refine ensures_seq (ensures_loadHnsw h fun result hresult => ?_)
  have hrebuild : (rebuildHnsw S state checkpoint metric segments : Program (Store F) ε _).Ensures
      (progress S state start allowed ok) store :=
    ensures_rebuildHnsw h hsource fun hnsw snapshot hnext hindex =>
      hok hnsw snapshot hnext fun index hsome => .inl (hindex index hsome)
  cases result with
  | loaded index =>
    refine ensures_pure (hok (some index) store.dir.hnsw h ?_)
    rintro _ ⟨⟩
    exact .inr (hresult index rfl)
  | missing => exact hrebuild
  | stale => exact hrebuild

theorem ensures_recoverHnsw {runtime : CollectionRuntime} {ok : Option HnswIndex → Store F → Prop}
    (h : Reached S state start allowed store)
    (hsource : ∀ checkpoint, runtime.checkpoint = some checkpoint →
      Indexable store checkpoint runtime.metric runtime.segments)
    (hok : ∀ hnsw snapshot, Reached S state start allowed
        (store.updateDir fun dir => { dir with hnsw := snapshot }) →
      (∀ index, hnsw = some index → ∃ checkpoint, runtime.checkpoint = some checkpoint ∧
        (buildHnsw S checkpoint runtime.metric runtime.segments = .ok index ∨
          DecodedSnapshot.load S state.fingerprint ⟨checkpoint, runtime.metric, .default⟩ snapshot =
            .ok (.loaded index))) →
        ok hnsw (store.updateDir fun dir => { dir with hnsw := snapshot })) :
    (recoverHnsw S state runtime).Ensures (progress S state start allowed ok) store := by
  have hnone : ok none store := hok none store.dir.hnsw h nofun
  unfold recoverHnsw
  cases hcheckpoint : runtime.checkpoint with
  | none => exact ensures_pure hnone
  | some checkpoint =>
    simp only
    split
    · refine ensures_restoreOrRebuildHnsw h (hsource checkpoint hcheckpoint) ?_
      intro hnsw snapshot hnext hindex
      exact hok hnsw snapshot hnext fun index hsome => ⟨checkpoint, hcheckpoint, hindex index hsome⟩
    · exact ensures_pure hnone

theorem ensures_recover (h : Reached S state start allowed store) :
    (AppState.recover S state).Ensures (progress S state start allowed fun _ next =>
      Reached S state start allowed next ∧ ∃ runtime, next.runtime = some runtime) store := by
  refine ensures_seq (ensures_seq (ensures_access h (ensures_getBind ?_)))
  refine ensures_seq (ensures_check h fun _ _ => ensures_seq (ensures_check h ?_))
  intro segments hsegments
  refine ensures_seq (ensures_mapError (ensures_openWal h fun log replay hopened hreached => ?_))
  refine ensures_seq (ensures_check hreached fun mutable hmutable => ensures_pure ?_)
  refine ensures_seq (ensures_recoverHnsw hreached (fun checkpoint hcheckpoint =>
    .recovering hcheckpoint rfl hsegments) fun hnsw snapshot hnext hindex => ensures_modify ?_)
  exact ⟨hnext.step (.recover ⟨hsegments, ⟨log, replay, ⟨openWithPolicy_created hopened.opens,
    hopened.replays⟩, rfl, hmutable⟩, rfl, hindex⟩), _, rfl⟩

end Recovery

end StoreStep

end Ketebe
