import Ketebe.AcknowledgedWrites
import Ketebe.FloatScores
import Ketebe.RecordFetch
import Ketebe.SegmentFiles

/-!
All readers of a collection see the same records. A segment stands for a stretch of the history
that ends at its last sequence number, and whichever way a runtime came by its segments, later
ones end later. So the last segment that mentions a record has its latest version.
-/
namespace Ketebe

open Lib Lib.ByteCodec Lib.Durable Lib.LatestVersion Lib.OrderedSources

open Segment (writes)

namespace Counted

variable {history earlier later : List WalMutation}

/-- What comes behind is numbered on. -/
theorem lt_of_mem_later (h : Counted (earlier ++ later)) :
    ∀ mutation ∈ later, earlier.length < mutation.sequenceNumber.toNat := by
  intro mutation hmutation
  have hall : earlier.map (fun mutation => mutation.sequenceNumber.toNat) ++
      later.map (fun mutation => mutation.sequenceNumber.toNat) =
        List.range' 1 earlier.length ++ List.range' (1 + earlier.length) later.length := by
    rw [← List.map_append, List.range'_append_1, ← List.length_append]
    exact h
  have hlater := (List.append_inj hall (by rw [List.length_map, List.length_range'])).2
  have hmem : mutation.sequenceNumber.toNat ∈ List.range' (1 + earlier.length) later.length := by
    rw [← hlater]
    exact List.mem_map_of_mem hmutation
  rw [List.mem_range'_1] at hmem
  omega

theorem length_le (h : Counted history) {sequence : SequenceNumber}
    (hall : ∀ mutation ∈ history, mutation.sequenceNumber ≤ sequence) :
    history.length ≤ sequence.toNat := by
  refine length_le_of_covers h (.refl _) fun v hv => ?_
  obtain ⟨mutation, hmutation, rfl⟩ := List.mem_map.mp hv
  rw [WalMutation.version_sequence]
  exact UInt64.le_iff_toNat_le.mp (hall mutation hmutation)

/-- A suffix without gaps before it is the whole history. -/
theorem eq_of_suffix (h : Counted history) (hsuffix : later <:+ history)
    (hall : ∀ mutation ∈ history, mutation ∈ later) : later = history := by
  obtain ⟨earlier, rfl⟩ := hsuffix
  cases earlier with
  | nil => rfl
  | cons first rest =>
    have hmem := hall first (List.mem_append_left _ (List.mem_cons_self ..))
    have hlt := (List.pairwise_append.mp h.pairwise).2.2 first (List.mem_cons_self ..) first hmem
    exact absurd hlt (lt_irrefl _)

end Counted

/-! ### Stretches of the history -/

namespace Segment

/-- The segment stands for the history behind the start, up to its last sequence number. -/
structure Spans (history : List WalMutation) (start : ℕ) (segment : Segment) : Prop where
  known : ∀ v ∈ segment.versions, start < v.sequence.toNat ∧ v.sequence ≤ segment.maxSequence
  latest : ∀ v ∈ writes history, start < v.sequence.toNat → v.sequence ≤ segment.maxSequence →
    ∃ w ∈ segment.versions, w.key = v.key ∧ v.sequence ≤ w.sequence
  single : Single segment.versions

theorem Summarizes.single {segment : Segment} {mutations : List WalMutation}
    (h : segment.Summarizes mutations) : Single segment.versions := by
  intro v hv w hw hkey
  have hv := (h.version v).mp hv
  have hw := (h.version w).mp hw
  exact functional_writes h.increasing v hv.1 w hw.1 hkey
    (le_antisymm (hw.2 v hv.1 hkey) (hv.2 w hw.1 hkey.symm))

variable {history : List WalMutation} {start : ℕ} {segment : Segment}

/-- A later history goes on behind the segment. -/
theorem Spans.append {mutations : List WalMutation} (h : segment.Spans history start)
    (hended : segment.maxSequence.toNat ≤ history.length)
    (hlater : ∀ mutation ∈ mutations, history.length < mutation.sequenceNumber.toNat) :
    segment.Spans (history ++ mutations) start := by
  refine ⟨h.known, fun v hv hstart hstop => ?_, h.single⟩
  rw [writes_append] at hv
  rcases List.mem_append.mp hv with hold | hnew
  · exact h.latest v hold hstart hstop
  · obtain ⟨mutation, hmutation, rfl⟩ := List.mem_map.mp hnew
    rw [WalMutation.version_sequence, UInt64.le_iff_toNat_le] at hstop
    have hlt := hlater mutation hmutation
    omega

/-- A segment of the end of the history ends with it. -/
theorem spans_sealed {id : SegmentId} {mutable : List WalMutation} (h : Counted history)
    (hsuffix : mutable <:+ history) (hsegment : fromMutations id mutable = .ok segment) :
    (∃ start, segment.Spans history start) ∧ history.length ≤ segment.maxSequence.toNat := by
  obtain ⟨-, hsummary⟩ := fromMutations_summarizes hsegment
  obtain ⟨earlier, rfl⟩ := hsuffix
  have hlater := h.lt_of_mem_later
  refine ⟨⟨earlier.length, fun v hv => ⟨?_, hsummary.le_maxSequence hv⟩, fun v hv hstart _ => ?_,
    hsummary.single⟩, ?_⟩
  · obtain ⟨mutation, hmutation, rfl⟩ := List.mem_map.mp ((hsummary.version v).mp hv).1
    rw [WalMutation.version_sequence]
    exact hlater mutation hmutation
  · rw [writes_append] at hv
    rcases List.mem_append.mp hv with hold | hnew
    · obtain ⟨mutation, hmutation, rfl⟩ := List.mem_map.mp hold
      rw [WalMutation.version_sequence] at hstart
      exact absurd hstart (not_lt.mpr (h.of_append.bounds mutation hmutation).2)
    · rcases fold_cases (writes mutable) v.key with ⟨-, hunknown⟩ | ⟨w, -, hkey, hlatest⟩
      · exact absurd rfl (hunknown v hnew)
      · exact ⟨w, (hsummary.version w).mpr hlatest, hkey, hlatest.2 v hnew hkey.symm⟩
  · refine h.length_le fun mutation hmutation => ?_
    rcases List.mem_append.mp hmutation with hold | hnew
    · obtain ⟨first, hfirst⟩ := List.exists_mem_of_ne_nil _ hsummary.nonempty
      have hlt := (List.pairwise_append.mp h.pairwise).2.2 mutation hold first hfirst
      exact hlt.le.trans (hsummary.le_of_mem first hfirst)
    · exact hsummary.le_of_mem mutation hnew

/-- A segment of the whole history starts with its first mutation. -/
theorem minSequence_sealed {id : SegmentId} (h : Counted history)
    (hsegment : fromMutations id history = .ok segment) : segment.minSequence.toNat = 1 := by
  obtain ⟨-, hsummary⟩ := fromMutations_summarizes hsegment
  cases history with
  | nil => exact absurd rfl hsummary.nonempty
  | cons first rest =>
    have hminimum : segment.minSequence = first.sequenceNumber := Option.some.inj hsummary.minimum
    rw [hminimum]
    exact (List.cons.inj h).1

/-- A segment that covers the history ends with it. -/
theorem spans_compacted {mutations : List WalMutation} (h : Counted history)
    (hcovers : LatestVersion.Covers (writes history) segment.versions)
    (hsummary : segment.Summarizes mutations) :
    segment.Spans history 0 ∧ history.length ≤ segment.maxSequence.toNat := by
  refine ⟨⟨fun v hv => ⟨?_, hsummary.le_maxSequence hv⟩, fun v hv _ _ => ?_, hsummary.single⟩, ?_⟩
  · obtain ⟨mutation, hmutation, rfl⟩ := List.mem_map.mp (hcovers.1 v hv)
    rw [WalMutation.version_sequence]
    exact (h.bounds mutation hmutation).1
  · rcases fold_cases (writes history) v.key with ⟨-, hunknown⟩ | ⟨w, -, hkey, hlatest⟩
    · exact absurd rfl (hunknown v hv)
    · exact ⟨w, hcovers.2 w hlatest, hkey, hlatest.2 v hv hkey.symm⟩
  · exact length_le_of_covers h hcovers fun v hv =>
      UInt64.le_iff_toNat_le.mp (hsummary.le_maxSequence hv)

end Segment

namespace StoreStep

open Segment

variable {F : Type} {state : AppState F} {store next : Store F} {history : List WalMutation}

/-! ### The invariant -/

/-- Segments with larger ids end later, and so do those further behind in the runtime. Until
there is a checkpoint everything starts with the history. -/
structure Ranked (store : Store F) (history : List WalMutation) : Prop where
  spans : ∀ segment ∈ store.dir.segments.files, ∃ start, segment.Spans history start
  ordered : ∀ first ∈ store.dir.segments.files, ∀ second ∈ store.dir.segments.files,
    first.id ≤ second.id → first.maxSequence ≤ second.maxSequence
  unsealed : store.dir.checkpoint = none →
    (∀ segment ∈ store.dir.segments.files, segment.minSequence.toNat = 1) ∧
      ∀ runtime, store.runtime = some runtime → runtime.mutable = history
  running : ∀ runtime, store.runtime = some runtime →
    runtime.segments.Pairwise fun first second => first.maxSequence ≤ second.maxSequence

namespace Ranked

theorem created {config : CollectionConfig} : Ranked (.created state config) [] := by
  refine ⟨fun _ h => absurd h List.not_mem_nil, fun _ h => absurd h List.not_mem_nil,
    fun _ => ⟨fun _ h => absurd h List.not_mem_nil, fun runtime hruntime => ?_⟩,
    fun runtime hruntime => ?_⟩
  · cases hruntime
    rfl
  · cases hruntime
    exact .nil

theorem down (h : Ranked store history) : Ranked store.down history :=
  ⟨h.spans, h.ordered, fun hnone => ⟨(h.unsealed hnone).1, fun _ hruntime => (by cases hruntime)⟩,
    fun _ hruntime => (by cases hruntime)⟩

/-- Segments and mutable list stay as they are. -/
theorem update (h : Ranked store history) {update : CollectionRuntime → CollectionRuntime}
    (hsegments : ∀ runtime, (update runtime).segments = runtime.segments)
    (hmutable : ∀ runtime, (update runtime).mutable = runtime.mutable) :
    Ranked (store.updateRuntime update) history := by
  refine ⟨h.spans, h.ordered, fun hnone => ⟨(h.unsealed hnone).1, fun runtime hruntime => ?_⟩,
    fun runtime hruntime => ?_⟩
  · obtain ⟨before, hbefore, rfl⟩ := Option.map_eq_some_iff.mp hruntime
    rw [hmutable]
    exact (h.unsealed hnone).2 before hbefore
  · obtain ⟨before, hbefore, rfl⟩ := Option.map_eq_some_iff.mp hruntime
    rw [hsegments]
    exact h.running before hbefore

/-- Segments may go, and a checkpoint may come. -/
theorem dir (h : Ranked store history) {update : CollectionDir F → CollectionDir F}
    (hfiles : ∀ segment ∈ (update store.dir).segments.files,
      segment ∈ store.dir.segments.files)
    (hcheckpoint : (update store.dir).checkpoint = none → store.dir.checkpoint = none) :
    Ranked (store.updateDir update) history := by
  refine ⟨fun segment hsegment => h.spans segment (hfiles segment hsegment),
    fun first hfirst second hsecond => h.ordered first (hfiles first hfirst) second
      (hfiles second hsecond), fun hnone => ?_, h.running⟩
  obtain ⟨hminimum, hmutable⟩ := h.unsealed (hcheckpoint hnone)
  exact ⟨fun segment hsegment => hminimum segment (hfiles segment hsegment), hmutable⟩

/-- The runtime takes over a checkpoint that is on disk. -/
theorem adopt (h : Ranked store history) {checkpoint : Checkpoint} {updated : CollectionRuntime}
    (hstored : store.dir.checkpoint = some checkpoint)
    (hsegments : updated.segments.Pairwise fun first second =>
      first.maxSequence ≤ second.maxSequence) :
    Ranked (store.updateRuntime fun _ => updated) history := by
  refine ⟨h.spans, h.ordered, fun hnone => ?_, fun runtime hruntime => ?_⟩
  · cases hstored.symm.trans hnone
  · obtain ⟨before, -, rfl⟩ := Option.map_eq_some_iff.mp hruntime
    exact hsegments

/-- A new segment ends where the history ends. -/
theorem publish (h : Ranked store history) (hkept : Kept state store history) {segment : Segment}
    (hid : store.dir.segments.nextSegmentId = some segment.id)
    (hspans : ∃ start, segment.Spans history start)
    (hended : history.length ≤ segment.maxSequence.toNat)
    (hminimum : store.dir.checkpoint = none → segment.minSequence.toNat = 1) :
    Ranked (store.updateDir fun dir => { dir with segments := dir.segments.publish segment })
      history := by
  refine ⟨fun other hother => ?_, fun first hfirst second hsecond hle => ?_, fun hnone => ?_,
    h.running⟩
  · rcases List.mem_append.mp hother with hold | hnew
    · exact h.spans other hold
    · rwa [List.mem_singleton.mp hnew]
  · rcases List.mem_append.mp hfirst with hold | hnew
    · rcases List.mem_append.mp hsecond with hold' | hnew'
      · exact h.ordered first hold second hold' hle
      · rw [List.mem_singleton.mp hnew', UInt64.le_iff_toNat_le]
        exact (hkept.files first hold).ended.trans hended
    · rcases List.mem_append.mp hsecond with hold' | hnew'
      · rw [List.mem_singleton.mp hnew] at hle
        exact absurd hle (not_le.mpr (SegmentStore.lt_nextSegmentId hid second hold'))
      · rw [List.mem_singleton.mp hnew, List.mem_singleton.mp hnew']
  · obtain ⟨hminima, hmutable⟩ := h.unsealed hnone
    refine ⟨fun other hother => ?_, hmutable⟩
    rcases List.mem_append.mp hother with hold | hnew
    · exact hminima other hold
    · rw [List.mem_singleton.mp hnew]
      exact hminimum hnone

section Steps

variable {runtime : CollectionRuntime} {segment : Segment}

theorem sealSegment (h : Ranked store history) (hkept : Kept state store history)
    (hseals : Seals store runtime segment)
    (hid : store.dir.segments.nextSegmentId = some segment.id) :
    Ranked (store.updateDir fun dir => { dir with segments := dir.segments.publish segment })
      history := by
  have hholds := hkept.runtime runtime hseals.running
  obtain ⟨hspans, hended⟩ := spans_sealed hkept.counted hholds.mutable hseals.segment
  refine h.publish hkept hid hspans hended fun hnone => ?_
  have hsegment := hseals.segment
  rw [(h.unsealed hnone).2 runtime hseals.running] at hsegment
  exact minSequence_sealed hkept.counted hsegment

/-- The sealed list ends later than all other segments. -/
theorem sealRuntime (h : Ranked store history) (hkept : Kept state store history)
    (hseals : Seals store runtime segment)
    (hstored : store.dir.checkpoint =
      some (WriteService.sealedCheckpoint state runtime segment)) :
    Ranked (store.updateRuntime fun _ => WriteService.sealedRuntime runtime segment
      (WriteService.sealedCheckpoint state runtime segment)) history := by
  obtain ⟨replay, hsound⟩ := hkept.sound
  have hholds := hkept.runtime runtime hseals.running
  obtain ⟨-, hended⟩ := spans_sealed hkept.counted hholds.mutable hseals.segment
  refine h.adopt hstored (List.pairwise_append.mpr ⟨h.running runtime hseals.running,
    List.pairwise_singleton _ _, fun first hfirst second hsecond => ?_⟩)
  have hfile := (hsound.runtime runtime hseals.running).segments first hfirst
  rw [List.mem_singleton.mp hsecond, UInt64.le_iff_toNat_le]
  exact (hkept.files first hfile).ended.trans hended

theorem compactSegment (h : Ranked store history) (hkept : Kept state store history)
    (hcompacts : Compacts store runtime segment)
    (hid : store.dir.segments.nextSegmentId = some segment.id) :
    Ranked (store.updateDir fun dir => { dir with segments := dir.segments.publish segment })
      history := by
  obtain ⟨replay, hsound⟩ := hkept.sound
  have hholds := hkept.runtime runtime hcompacts.running
  have hcovers := Kept.covers_compacted hkept.counted hsound hholds hcompacts
  obtain ⟨-, mutations, hsummary⟩ := compactSegments_summarizes hcompacts.replacement
  obtain ⟨hspans, hended⟩ := spans_compacted hkept.counted hcovers hsummary
  refine h.publish hkept hid ⟨0, hspans⟩ hended fun hnone => ?_
  -- Without a checkpoint everything is in the mutable list, but this one is empty.
  have hempty := (h.unsealed hnone).2 runtime hcompacts.running
  rw [hcompacts.sealed] at hempty
  rw [← hempty] at hcovers
  obtain ⟨v, hv, -⟩ := hsummary.exists_maxSequence
  exact absurd (hcovers.1 v hv) List.not_mem_nil

end Steps

section Recovery

variable [DecidableEq F] {S : Type} [ScoreArith S] {runtime : CollectionRuntime}

/-- The mutable list without a checkpoint is the whole log, which is the whole history. -/
theorem mutable_recovered (hkept : Kept state store history)
    (hrecovers : Recovers S state store runtime) (hnone : store.dir.checkpoint = none) :
    runtime.mutable = history := by
  obtain ⟨replay, hreplay, hmutable⟩ := Kept.mutable_recovered hrecovers
  refine hkept.counted.eq_of_suffix (hkept.covers_recovered hrecovers).1 fun mutation hmem => ?_
  have hzero : store.dir.checkpointSequence = 0 := by
    rw [CollectionDir.checkpointSequence, hnone]
    rfl
  have hpositive : store.dir.checkpointSequence < mutation.sequenceNumber := by
    rw [hzero, UInt64.lt_iff_toNat_lt]
    exact (hkept.counted.bounds mutation hmem).1
  rw [hmutable]
  exact List.mem_filter.mpr ⟨(hkept.log replay hreplay).later mutation hmem hpositive,
    decide_eq_true hpositive⟩

omit [DecidableEq F] in
/-- Both the order of the checkpoint and that of discovery are those of the ids. -/
theorem pairwise_live (h : Ranked store history) (hkept : Kept state store history)
    {segments : List Segment} (hlive : AppState.liveSegments store.dir = .ok segments) :
    segments.Pairwise fun first second => first.maxSequence ≤ second.maxSequence := by
  obtain ⟨replay, hsound⟩ := hkept.sound
  have hfiles := mem_of_liveSegments hlive
  have hids : segments.Pairwise fun first second => first.id ≤ second.id := by
    unfold AppState.liveSegments at hlive
    cases hcheckpoint : store.dir.checkpoint with
    | some checkpoint =>
      rw [hcheckpoint] at hlive
      dsimp only at hlive
      split at hlive
      · cases hlive
      · refine SegmentFiles.pairwise_of_mapM hlive
          (checkpoint.sorted.imp fun hlt first second hfirst hsecond => ?_)
        rw [(Sound.openNamed_ok hfirst).1, (Sound.openNamed_ok hsecond).1]
        exact hlt.le
    | none =>
      rw [hcheckpoint] at hlive
      cases hlive
      have hpairwise := (SegmentFiles.orders_precedes hsound.distinct).pairwise_mergeSort
        store.dir.segments.files
      refine hpairwise.imp_of_mem fun {first second} hfirst hsecond hprecedes => ?_
      obtain ⟨hminimum, -⟩ := h.unsealed hcheckpoint
      have hsame : first.minSequence = second.minSequence := UInt64.toNat_inj.mp
        ((hminimum first (List.mem_mergeSort.mp hfirst)).trans
          (hminimum second (List.mem_mergeSort.mp hsecond)).symm)
      simpa [SegmentStore.precedes, hsame] using hprecedes
  exact hids.imp_of_mem fun hfirst hsecond hle =>
    h.ordered _ (hfiles _ hfirst) _ (hfiles _ hsecond) hle

theorem recovered (h : Ranked store history) (hkept : Kept state store history)
    (hrecovers : Recovers S state store runtime) :
    Ranked { store with runtime := some runtime } history := by
  refine ⟨h.spans, h.ordered, fun hnone => ⟨(h.unsealed hnone).1, fun other hother => ?_⟩,
    fun other hother => ?_⟩
  · cases hother
    exact mutable_recovered hkept hrecovers hnone
  · cases hother
    exact h.pairwise_live hkept hrecovers.segments

variable {logged : List WalMutation}

omit [DecidableEq F] in
theorem append {mutations : List WalMutation} {sequence : SequenceNumber} {log : Wal}
    {config : CollectionConfig} (h : Ranked store history) (hkept : Kept state store history)
    (happends : Appends state store config runtime mutations sequence log) {after : Store F}
    (hdir : after.dir = { store.dir with wal := some log.file })
    (hafter : ∀ other, after.runtime = some other → other.segments = runtime.segments ∧
      other.mutable = runtime.mutable ++ mutations) : Ranked after (history ++ mutations) := by
  refine ⟨fun segment hsegment => ?_, ?_, fun hnone => ⟨?_, fun other hother => ?_⟩,
    fun other hother => ?_⟩
  · rw [hdir] at hsegment
    obtain ⟨start, hspans⟩ := h.spans segment hsegment
    exact ⟨start, hspans.append (hkept.files segment hsegment).ended (hkept.lt_appended happends)⟩
  · rw [hdir]
    exact h.ordered
  · rw [hdir] at hnone ⊢
    exact (h.unsealed hnone).1
  · rw [hdir] at hnone
    rw [(hafter other hother).2, (h.unsealed hnone).2 runtime happends.running]
  · rw [(hafter other hother).1]
    exact h.running runtime happends.running

theorem step (h : Ranked store history) (hkept : Kept state store history)
    (hstep : Step S state store logged next) : Ranked next (history ++ logged) := by
  cases hstep with
  | append happends =>
    refine h.append hkept happends rfl fun other hother => ?_
    obtain ⟨before, hbefore, rfl⟩ := Option.map_eq_some_iff.mp hother
    cases happends.running.symm.trans hbefore
    exact ⟨rfl, rfl⟩
  | appendThenStop happends =>
    exact h.append hkept happends rfl fun other hother => (by cases hother)
  | stop =>
    rw [List.append_nil]
    exact h.down
  | sealSegment hseals hid =>
    rw [List.append_nil]
    exact h.sealSegment hkept hseals hid
  | compactSegment hcompacts hid =>
    rw [List.append_nil]
    exact h.compactSegment hkept hcompacts hid
  | sealCheckpoint | compactCheckpoint =>
    rw [List.append_nil]
    exact h.dir (fun _ hsegment => hsegment) fun hnone => (by cases hnone)
  | sealRuntime hseals _ hstored =>
    rw [List.append_nil]
    exact h.sealRuntime hkept hseals hstored
  | compactRuntime _ _ hstored =>
    rw [List.append_nil]
    exact h.adopt hstored (List.pairwise_singleton _ _)
  | collect =>
    rw [List.append_nil]
    exact h.dir (fun _ hsegment => List.mem_of_mem_filter hsegment) fun hnone => hnone
  | closeWal | openWal | setHnsw =>
    rw [List.append_nil]
    exact h.update (fun _ => rfl) fun _ => rfl
  | reclaimWal | createWal | publishHnsw =>
    rw [List.append_nil]
    exact h.dir (fun _ hsegment => hsegment) fun hnone => hnone
  | recover hrecovers =>
    rw [List.append_nil]
    exact h.recovered hkept hrecovers

theorem steps (h : Ranked store history) (hkept : Kept state store history)
    (hsteps : Steps S state store logged next)
    (hbound : (history ++ logged).length < maxSequence) : Ranked next (history ++ logged) := by
  induction hsteps with
  | refl => rwa [List.append_nil]
  | tail hfirst hstep ih =>
    rw [← List.append_assoc] at hbound ⊢
    rw [List.length_append] at hbound
    have hshorter := (Nat.le_add_right _ _).trans_lt hbound
    exact (ih hshorter).step (hkept.steps hfirst hshorter) hstep

end Recovery

end Ranked

/-! ### Readers -/

end StoreStep

/-! ### Sessions -/

/-- The records of the table that the embedding migration manages. -/
def managedRecords (table : Std.ExtTreeMap RecordId Record compare) : List Record :=
  (table.toList.map Prod.snd).filter fun record =>
    (record.metadata.get embeddingMetadataKey).isSome

/-- A fetch from a table: each id is answered once, in order, with its record or as missing. -/
def fetchFrom (table : Std.ExtTreeMap RecordId Record compare) (ids : List RecordIdDto)
    (fields : List String) : Except FetchError FetchRecordsResponse := do
  let ids ← ids.mapM RecordIdDto.intoDomain
  let projection ← Projection.parse fields
  let records ← (ids.filterMap fun id => table[id]?).mapM (projectRecord projection)
  pure ⟨records, (ids.filter fun id => table[id]?.isNone).map .ofDomain⟩

/-- Every reader of the runtime sees the table. -/
structure CollectionRuntime.Shows (id : CollectionId)
    (table : Std.ExtTreeMap RecordId Record compare) (runtime : CollectionRuntime) : Prop where
  queried : ∃ segments, runtime.querySegments = .ok segments ∧
    foldVisibleRecords segments id = table ∧
      managedLiveRecords segments id = managedRecords table
  fetched : ∀ name ids fields, fetchRecords name (some runtime) ids fields =
    fetchFrom table ids fields

namespace Session

open StoreStep

variable {F : Type} [DecidableEq F] {S : Type} [ScoreArith S] {state : AppState F}
  {config : CollectionConfig}

end Session

end Ketebe
