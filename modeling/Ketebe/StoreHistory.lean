import Ketebe.StoreSoundness

/-!
The history of a collection: all mutations that were ever logged, numbered from one. Whatever
steps the store takes, its runtime shows what the history replays to. A checkpoint stands for
the history up to its sequence number, and the log holds all that is later.
-/
namespace Ketebe

open Lib Lib.ByteCodec Lib.LatestVersion

open Segment (writes)

/-- The sequence numbers count the mutations. -/
def Counted (history : List WalMutation) : Prop :=
  history.map (fun mutation => mutation.sequenceNumber.toNat) = List.range' 1 history.length

theorem writes_nil : writes [] = [] := rfl

theorem writes_append (first second : List WalMutation) :
    writes (first ++ second) = writes first ++ writes second := List.map_append

/-- The history up to a sequence number. -/
def upTo (sequence : SequenceNumber) (history : List WalMutation) : List WalMutation :=
  history.filter fun mutation => mutation.sequenceNumber ≤ sequence

namespace Counted

variable {history : List WalMutation}

theorem nil : Counted [] := rfl

theorem bounds (h : Counted history) : ∀ mutation ∈ history,
    0 < mutation.sequenceNumber.toNat ∧ mutation.sequenceNumber.toNat ≤ history.length := by
  intro mutation hmutation
  have hmem : mutation.sequenceNumber.toNat ∈ List.range' 1 history.length := by
    rw [← h]
    exact List.mem_map_of_mem hmutation
  rw [List.mem_range'_1] at hmem
  omega

theorem pairwise (h : Counted history) : history.Pairwise fun first second =>
    first.sequenceNumber < second.sequenceNumber := by
  have hrange : (List.range' 1 history.length).Pairwise (· < ·) := List.pairwise_lt_range'
  rw [← h, List.pairwise_map] at hrange
  exact hrange.imp fun hlt => UInt64.lt_iff_toNat_lt.mpr hlt

theorem increasing (h : Counted history) : Wal.Increasing none history :=
  Wal.increasing_iff_pairwise.mpr ⟨fun _ _ _ hnone => (by cases hnone), h.pairwise⟩

theorem functional (h : Counted history) : Functional (writes history) :=
  Segment.functional_writes h.increasing

/-- The last mutation has the largest number. -/
theorem last {earlier : List WalMutation} {mutation : WalMutation}
    (h : Counted (earlier ++ [mutation])) :
    mutation.sequenceNumber.toNat = (earlier ++ [mutation]).length := by
  have hlast := congrArg List.getLast? h
  rw [List.map_append, List.map_singleton, List.getLast?_concat, List.length_append,
    List.length_singleton, List.range'_concat, List.getLast?_concat] at hlast
  rw [List.length_append, List.length_singleton, Option.some.inj hlast]
  omega

theorem of_append {later : List WalMutation} (h : Counted (history ++ later)) :
    Counted history := by
  rw [Counted, List.map_append, List.length_append, ← List.range'_append_1] at h
  exact (List.append_inj h (by rw [List.length_map, List.length_range'])).1

/-- Numbering goes on behind the history. -/
theorem append {batch : List PendingMutation} {next last : SequenceNumber}
    {mutations : List WalMutation} (h : Counted history)
    (hnumbered : numberFrom next batch = (mutations, last))
    (hnext : next.toNat = history.length + 1)
    (hbound : (history ++ mutations).length < maxSequence) :
    Counted (history ++ mutations) ∧ last.toNat = (history ++ mutations).length + 1 := by
  induction batch generalizing history next mutations with
  | nil =>
    cases hnumbered
    rw [List.append_nil]
    exact ⟨h, hnext⟩
  | cons pending rest ih =>
    rcases hrest : numberFrom next.saturatingSucc rest with ⟨later, final⟩
    rw [numberFrom, hrest] at hnumbered
    cases hnumbered
    have hfirst : (pending.numbered next).sequenceNumber = next := by cases pending <;> rfl
    rw [List.length_append, List.length_cons] at hbound
    have hcounted : Counted (history ++ [pending.numbered next]) := by
      rw [Counted, List.map_append, List.map_singleton, List.length_append, List.length_singleton,
        List.range'_concat, hfirst, hnext, h, add_comm 1, Nat.one_mul]
    have hsucc : next.saturatingSucc.toNat = (history ++ [pending.numbered next]).length + 1 := by
      rw [SequenceNumber.toNat_saturatingSucc next (by omega), hnext, List.length_append,
        List.length_singleton]
    have hall : history ++ pending.numbered next :: later =
        history ++ [pending.numbered next] ++ later := List.append_cons ..
    rw [hall]
    refine ih hcounted hrest hsucc ?_
    rw [List.length_append, List.length_append, List.length_singleton]
    omega

end Counted

/-! ### Parts of the history -/

section Parts

variable {history : List WalMutation} {sequence : SequenceNumber}

theorem mem_upTo {mutation : WalMutation} :
    mutation ∈ upTo sequence history ↔ mutation ∈ history ∧ mutation.sequenceNumber ≤ sequence := by
  rw [upTo, List.mem_filter, decide_eq_true_eq]

theorem upTo_eq (h : ∀ mutation ∈ history, mutation.sequenceNumber ≤ sequence) :
    upTo sequence history = history :=
  List.filter_eq_self.mpr fun mutation hmutation => decide_eq_true (h mutation hmutation)

/-- What is logged later does not change an earlier part. -/
theorem upTo_append {later : List WalMutation}
    (h : ∀ mutation ∈ later, sequence < mutation.sequenceNumber) :
    upTo sequence (history ++ later) = upTo sequence history := by
  have hnone : upTo sequence later = [] := List.filter_eq_nil_iff.mpr fun mutation hmutation hle =>
    absurd (of_decide_eq_true hle) (not_le.mpr (h mutation hmutation))
  have hboth : upTo sequence (history ++ later) = upTo sequence history ++ upTo sequence later :=
    List.filter_append ..
  rw [hboth, hnone, List.append_nil]

/-- What comes behind a sequence number are the last mutations of the history. -/
theorem filter_suffix (h : history.Pairwise fun first second =>
    first.sequenceNumber < second.sequenceNumber) :
    (history.filter fun mutation => sequence < mutation.sequenceNumber) <:+ history := by
  induction history with
  | nil => exact List.suffix_rfl
  | cons first rest ih =>
    obtain ⟨hfirst, hrest⟩ := List.pairwise_cons.mp h
    by_cases hlater : sequence < first.sequenceNumber
    · rw [List.filter_eq_self.mpr]
      intro mutation hmutation
      rcases List.mem_cons.mp hmutation with rfl | hmem
      · exact decide_eq_true hlater
      · exact decide_eq_true (hlater.trans (hfirst mutation hmem))
    · have hnot : ¬decide (sequence < first.sequenceNumber) = true :=
        fun htrue => hlater (of_decide_eq_true htrue)
      rw [List.filter_cons, if_neg hnot]
      exact (ih hrest).trans (List.suffix_cons ..)

theorem latest_last {earlier : List WalMutation} {mutation : WalMutation}
    (h : Counted (earlier ++ [mutation])) :
    Latest (writes (earlier ++ [mutation])) mutation.version := by
  refine ⟨List.mem_map_of_mem (List.mem_append_right _ (List.mem_singleton_self _)), ?_⟩
  intro v hv _
  obtain ⟨other, hother, rfl⟩ := List.mem_map.mp hv
  rw [WalMutation.version_sequence, WalMutation.version_sequence, UInt64.le_iff_toNat_le, h.last]
  exact (h.bounds other hother).2

/-- What covers the history ends with its last mutation. -/
theorem length_le_of_covers {versions : List RecordVersion} {bound : ℕ} (h : Counted history)
    (hcovers : LatestVersion.Covers (writes history) versions)
    (hbound : ∀ v ∈ versions, v.sequence.toNat ≤ bound) : history.length ≤ bound := by
  rcases List.eq_nil_or_concat history with rfl | ⟨earlier, mutation, rfl⟩
  · exact Nat.zero_le bound
  · rw [List.concat_eq_append] at h hcovers ⊢
    have hlast := hbound _ (hcovers.2 _ (latest_last h))
    rwa [WalMutation.version_sequence, h.last] at hlast

end Parts

/-! ### The invariant -/

/-- The segment holds versions of the history only. -/
structure Segment.Within (history : List WalMutation) (segment : Segment) : Prop where
  known : ∀ v ∈ segment.versions, v ∈ writes history
  ended : segment.maxSequence.toNat ≤ history.length

/-- The versions in the segments that the checkpoint names. -/
def Checkpoint.versions (checkpoint : Checkpoint) (files : List Segment) : List RecordVersion :=
  (files.filter fun segment => segment.id ∈ checkpoint.segments).flatMap Segment.versions

/-- The checkpoint stands for the history up to its sequence number. -/
structure Checkpoint.Represents (history : List WalMutation) (files : List Segment)
    (checkpoint : Checkpoint) : Prop where
  ended : checkpoint.sequenceNumber.toNat ≤ history.length
  covers : LatestVersion.Covers (writes (upTo checkpoint.sequenceNumber history))
    (checkpoint.versions files)

def CollectionDir.checkpointSequence {F : Type} (dir : CollectionDir F) : SequenceNumber :=
  (dir.checkpoint.map Checkpoint.sequenceNumber).getD 0

/-- The log holds the end of the history, with all that is later than the checkpoint. -/
structure LogHolds (history : List WalMutation) (sequence : SequenceNumber)
    (entries : List WalMutation) : Prop where
  suffix : entries <:+ history
  later : ∀ mutation ∈ history, sequence < mutation.sequenceNumber → mutation ∈ entries

/-- The runtime shows the whole history and numbers what comes next. -/
structure CollectionRuntime.Holds (history : List WalMutation) (runtime : CollectionRuntime) :
    Prop where
  next : runtime.nextSequence.toNat = history.length + 1
  mutable : runtime.mutable <:+ history
  covers : LatestVersion.Covers (writes history)
    (runtime.segments.flatMap Segment.versions ++ writes runtime.mutable)
  ended : ∀ checkpoint, runtime.checkpoint = some checkpoint →
    checkpoint.sequenceNumber.toNat ≤ history.length

namespace StoreStep

variable {F : Type} {state : AppState F} {store : Store F}

structure Kept (state : AppState F) (store : Store F) (history : List WalMutation) : Prop where
  counted : Counted history
  sound : ∃ replay, Sound state store replay
  exact : ∃ entries, LogExact store entries
  files : ∀ segment ∈ store.dir.segments.files, segment.Within history
  checkpoint : ∀ checkpoint, store.dir.checkpoint = some checkpoint →
    checkpoint.Represents history store.dir.segments.files
  log : ∀ replay, Wal.replayPath store.dir.wal = .ok replay →
    LogHolds history store.dir.checkpointSequence replay.entries
  runtime : ∀ runtime, store.runtime = some runtime → runtime.Holds history

namespace Kept

variable {history : List WalMutation}

theorem down (h : Kept state store history) : Kept state store.down history := by
  obtain ⟨replay, hsound⟩ := h.sound
  obtain ⟨entries, hexact⟩ := h.exact
  refine ⟨h.counted, ⟨replay, hsound.down⟩, ⟨entries, hexact.down⟩, h.files, h.checkpoint, h.log,
    fun runtime hruntime => ?_⟩
  have hnone : store.down.runtime = none := rfl
  cases hnone.symm.trans hruntime

theorem update (h : Kept state store history) {update : CollectionRuntime → CollectionRuntime}
    (hsound : ∃ replay, Sound state (store.updateRuntime update) replay)
    (hexact : ∃ entries, LogExact (store.updateRuntime update) entries)
    (hupdate : ∀ runtime, store.runtime = some runtime → runtime.Holds history →
      (update runtime).Holds history) : Kept state (store.updateRuntime update) history := by
  refine ⟨h.counted, hsound, hexact, h.files, h.checkpoint, h.log, fun runtime hruntime => ?_⟩
  obtain ⟨before, hbefore, rfl⟩ := Option.map_eq_some_iff.mp hruntime
  exact hupdate before hbefore (h.runtime before hbefore)

/-- Other files than the log may change. -/
theorem dir (h : Kept state store history) {update : CollectionDir F → CollectionDir F}
    (hsound : ∃ replay, Sound state (store.updateDir update) replay)
    (hexact : ∃ entries, LogExact (store.updateDir update) entries)
    (hwal : (update store.dir).wal = store.dir.wal)
    (hfiles : ∀ segment ∈ (update store.dir).segments.files, segment.Within history)
    (hcheckpoint : ∀ checkpoint, (update store.dir).checkpoint = some checkpoint →
      checkpoint.Represents history (update store.dir).segments.files)
    (hlater : ∀ mutation ∈ history,
      (update store.dir).checkpointSequence < mutation.sequenceNumber →
        store.dir.checkpointSequence < mutation.sequenceNumber) :
    Kept state (store.updateDir update) history := by
  refine ⟨h.counted, hsound, hexact, hfiles, hcheckpoint, fun replay hreplay => ?_, h.runtime⟩
  have hsame : Wal.replayPath store.dir.wal = .ok replay := by
    rw [← hwal]
    exact hreplay
  obtain ⟨hsuffix, hkept⟩ := h.log replay hsame
  exact ⟨hsuffix, fun mutation hmutation hlt =>
    hkept mutation hmutation (hlater mutation hmutation hlt)⟩

/-! #### Segments -/

/-- What the segments under the named ids hold, when these are the given segments. -/
theorem mem_versions {replay : Wal.ReplayResult} (h : Sound state store replay)
    {checkpoint : Checkpoint} {segments : List Segment}
    (hsegments : ∀ segment ∈ segments, segment ∈ store.dir.segments.files)
    (hnamed : ∀ id, id ∈ checkpoint.segments ↔ ∃ segment ∈ segments, segment.id = id)
    (v : RecordVersion) : v ∈ checkpoint.versions store.dir.segments.files ↔
      v ∈ segments.flatMap Segment.versions := by
  rw [Checkpoint.versions, List.mem_flatMap, List.mem_flatMap]
  constructor
  · rintro ⟨segment, hmem, hv⟩
    obtain ⟨hfile, hid⟩ := List.mem_filter.mp hmem
    obtain ⟨other, hother, hsame⟩ := (hnamed segment.id).mp (of_decide_eq_true hid)
    rw [h.eq_of_id hfile (hsegments other hother) hsame] at hother
    exact ⟨segment, hother, hv⟩
  · rintro ⟨segment, hmem, hv⟩
    refine ⟨segment, List.mem_filter.mpr ⟨hsegments segment hmem, decide_eq_true ?_⟩, hv⟩
    exact (hnamed segment.id).mpr ⟨segment, hmem, rfl⟩

/-- No checkpoint names the segment that is published next. -/
theorem publish (h : Kept state store history) {segment : Segment}
    (hsound : ∃ replay, Sound state (store.updateDir fun dir =>
      { dir with segments := dir.segments.publish segment }) replay)
    (hexact : ∃ entries, LogExact (store.updateDir fun dir =>
      { dir with segments := dir.segments.publish segment }) entries)
    (hid : store.dir.segments.nextSegmentId = some segment.id) (hwithin : segment.Within history) :
    Kept state (store.updateDir fun dir =>
      { dir with segments := dir.segments.publish segment }) history := by
  obtain ⟨replay, hbefore⟩ := h.sound
  refine h.dir hsound hexact rfl (fun other hother => ?_) (fun checkpoint hcheckpoint => ?_)
    fun _ _ hlt => hlt
  · rcases List.mem_append.mp hother with hold | hnew
    · exact h.files other hold
    · rw [List.mem_singleton.mp hnew]
      exact hwithin
  · obtain ⟨hended, hcovers⟩ := h.checkpoint checkpoint hcheckpoint
    have hunnamed : segment.id ∉ checkpoint.segments := by
      intro hmem
      obtain ⟨old, hold, hsame⟩ := (hbefore.checkpoint checkpoint hcheckpoint).present _ hmem
      exact absurd hsame (SegmentStore.lt_nextSegmentId hid old hold).ne
    have hfiles : checkpoint.versions (store.dir.segments.publish segment).files =
        checkpoint.versions store.dir.segments.files := by
      rw [SegmentStore.publish, Checkpoint.versions, List.filter_append, List.filter_cons,
        if_neg fun htrue => hunnamed (of_decide_eq_true htrue), List.filter_nil, List.append_nil,
        Checkpoint.versions]
    refine ⟨hended, ?_⟩
    change LatestVersion.Covers _ (checkpoint.versions (store.dir.segments.publish segment).files)
    rwa [hfiles]

theorem setCheckpoint (h : Kept state store history) {checkpoint : Checkpoint}
    (hsound : ∃ replay, Sound state (store.updateDir fun dir =>
      { dir with checkpoint := some checkpoint }) replay)
    (hexact : ∃ entries, LogExact (store.updateDir fun dir =>
      { dir with checkpoint := some checkpoint }) entries)
    (hrepresents : checkpoint.Represents history store.dir.segments.files)
    (hall : ∀ mutation ∈ history, mutation.sequenceNumber ≤ checkpoint.sequenceNumber) :
    Kept state (store.updateDir fun dir => { dir with checkpoint := some checkpoint }) history := by
  refine h.dir hsound hexact rfl h.files (fun other hother => ?_) fun mutation hmutation hlt =>
    absurd hlt (not_lt.mpr (hall mutation hmutation))
  cases hother
  exact hrepresents

/-! #### Sealing -/

section Sealing

variable {runtime : CollectionRuntime} {segment : Segment}

theorem within_sealed (h : Counted history) (hholds : runtime.Holds history)
    (hseals : Seals store runtime segment) :
    segment.Within history ∧ LatestVersion.Covers (writes history)
      ((runtime.segments ++ [segment]).flatMap Segment.versions) := by
  obtain ⟨-, hsummary⟩ := Segment.fromMutations_summarizes hseals.segment
  have hcovers : LatestVersion.Covers (writes history)
      ((runtime.segments ++ [segment]).flatMap Segment.versions) := by
    rw [List.flatMap_append, List.flatMap_singleton]
    exact hholds.covers.trans ((LatestVersion.Covers.refl _).append hsummary.covers)
  obtain ⟨last, hlast, hmaximum, -⟩ := hsummary.last
  refine ⟨⟨fun v hv => hcovers.1 v ?_, ?_⟩, hcovers⟩
  · rw [List.flatMap_append, List.flatMap_singleton]
    exact List.mem_append_right _ hv
  · rw [← hmaximum]
    exact (h.bounds last (hholds.mutable.subset hlast)).2

theorem le_sealed (h : Counted history) (hholds : runtime.Holds history)
    (hseals : Seals store runtime segment) :
    ∀ mutation ∈ history, mutation.sequenceNumber ≤ segment.maxSequence := by
  obtain ⟨-, hsummary⟩ := Segment.fromMutations_summarizes hseals.segment
  intro mutation hmutation
  obtain ⟨earlier, hhistory⟩ := hholds.mutable
  rw [← hhistory] at hmutation
  rcases List.mem_append.mp hmutation with hold | hnew
  · obtain ⟨first, hfirst⟩ := List.exists_mem_of_ne_nil _ hsummary.nonempty
    have hpairwise := h.pairwise
    rw [← hhistory, List.pairwise_append] at hpairwise
    exact (hpairwise.2.2 mutation hold first hfirst).le.trans (hsummary.le_of_mem first hfirst)
  · exact hsummary.le_of_mem mutation hnew

theorem represents_sealed {replay : Wal.ReplayResult} (h : Counted history)
    (hsound : Sound state store replay) (hholds : runtime.Holds history)
    (hseals : Seals store runtime segment) (hlast : PublishedLast store segment) :
    (WriteService.sealedCheckpoint state runtime segment).Represents history
      store.dir.segments.files := by
  obtain ⟨hwithin, hcovers⟩ := within_sealed h hholds hseals
  have hbacked := hsound.backed_sealed hseals hlast
  have hall : upTo segment.maxSequence history = history := upTo_eq (le_sealed h hholds hseals)
  refine ⟨hwithin.ended, ?_⟩
  change LatestVersion.Covers (writes (upTo segment.maxSequence history)) _
  rw [hall]
  exact hcovers.congr (mem_versions hsound hbacked.segments (hbacked.named _ rfl))

theorem holds_sealed (h : Counted history) (hholds : runtime.Holds history)
    (hseals : Seals store runtime segment) : (WriteService.sealedRuntime runtime segment
      (WriteService.sealedCheckpoint state runtime segment)).Holds history := by
  obtain ⟨hwithin, hcovers⟩ := within_sealed h hholds hseals
  refine ⟨hholds.next, List.nil_suffix, ?_, fun checkpoint hsome => ?_⟩
  · change LatestVersion.Covers _
      ((runtime.segments ++ [segment]).flatMap Segment.versions ++ writes [])
    rwa [writes_nil, List.append_nil]
  · cases hsome
    exact hwithin.ended

end Sealing

/-! #### Compaction -/

section Compaction

variable {runtime : CollectionRuntime} {replacement : Segment} {replay : Wal.ReplayResult}

/-- What is not in the mutable list has been sealed. -/
theorem le_represented (h : Counted history) (hsound : Sound state store replay)
    (hrunning : store.runtime = some runtime) (hholds : runtime.Holds history)
    (hsealed : runtime.mutable = []) :
    ∀ mutation ∈ history, mutation.sequenceNumber ≤ WriteService.representedSequence runtime := by
  have hcovers := hholds.covers
  rw [hsealed] at hcovers
  have hlength := length_le_of_covers h hcovers fun v hv => by
    obtain ⟨segment, hsegment, hversion⟩ :=
      List.mem_flatMap.mp ((List.mem_append.mp hv).resolve_right List.not_mem_nil)
    have hle : v.sequence ≤ segment.maxSequence :=
      ((hsound.numbered.runtime runtime hrunning).segments segment hsegment).1.bounded v hversion
    have hrepresented : segment.maxSequence ≤ WriteService.representedSequence runtime := by
      unfold WriteService.representedSequence
      split
      · rename_i checkpoint hcheckpoint
        exact (hsound.runtime runtime hrunning).bounded checkpoint hcheckpoint segment hsegment
      · exact le_maxOf (List.mem_map_of_mem hsegment)
    exact UInt64.le_iff_toNat_le.mp (hle.trans hrepresented)
  intro mutation hmutation
  exact UInt64.le_iff_toNat_le.mpr ((h.bounds mutation hmutation).2.trans hlength)

theorem toNat_maxOf_le {sequences : List SequenceNumber} {bound : ℕ}
    (h : ∀ sequence ∈ sequences, sequence.toNat ≤ bound) :
    (CollectionRuntime.maxOf sequences).toNat ≤ bound := by
  unfold CollectionRuntime.maxOf
  suffices hfold : ∀ start : SequenceNumber, start.toNat ≤ bound →
      (sequences.foldl max start).toNat ≤ bound from hfold 0 (Nat.zero_le bound)
  induction sequences with
  | nil => exact fun _ hstart => hstart
  | cons first rest ih =>
    intro start hstart
    refine ih (fun sequence hmem => h sequence (List.mem_cons_of_mem _ hmem)) _ ?_
    rcases max_choice start first with hmax | hmax
    · rwa [hmax]
    · rw [hmax]
      exact h first (List.mem_cons_self ..)

theorem represented_le (h : Kept state store history) (hsound : Sound state store replay)
    (hrunning : store.runtime = some runtime) :
    (WriteService.representedSequence runtime).toNat ≤ history.length := by
  have hbacked := hsound.runtime runtime hrunning
  unfold WriteService.representedSequence
  split
  · rename_i checkpoint hcheckpoint
    exact (h.runtime runtime hrunning).ended checkpoint hcheckpoint
  · refine toNat_maxOf_le fun sequence hsequence => ?_
    obtain ⟨segment, hsegment, rfl⟩ := List.mem_map.mp hsequence
    exact (h.files segment (hbacked.segments segment hsegment)).ended

/-- Versions of the history have sequence numbers of their own. -/
theorem distinct_of_subset (h : Counted history) {versions : List RecordVersion}
    (hsubset : ∀ v ∈ versions, v ∈ writes history) : Distinct versions := by
  intro v hv w hw hsequence
  obtain ⟨first, hfirst, rfl⟩ := List.mem_map.mp (hsubset v hv)
  obtain ⟨second, hsecond, rfl⟩ := List.mem_map.mp (hsubset w hw)
  rw [WalMutation.version_sequence, WalMutation.version_sequence] at hsequence
  have hsymm : Std.Symm fun a b : WalMutation => a.sequenceNumber ≠ b.sequenceNumber :=
    ⟨fun _ _ h => h.symm⟩
  by_contra hne
  exact (h.pairwise.imp fun h => ne_of_lt h).forall hfirst hsecond
    (fun heq => hne (by rw [heq])) hsequence

theorem versions_ne_nil {id : SegmentId} {segments : List Segment}
    (h : compactSegments id segments = .ok replacement) :
    segments.flatMap Segment.versions ≠ [] := by
  intro hnil
  have hnone (collectionId : CollectionId) : latestMutations collectionId segments = [] := by
    have hempty : (∅ : Table RecordId SequenceNumber (Option Record)).toList = [] := rfl
    rw [latestMutations, hnil, versionsOf, fold, List.foldl_nil, hempty, List.map_nil, List.map_nil,
      List.mergeSort_nil]
  unfold compactSegments at h
  split at h
  · split at h
    · cases h
    · rw [hnone] at h
      cases h
  · cases h

theorem covers_compacted (h : Counted history) (hsound : Sound state store replay)
    (hholds : runtime.Holds history) (hcompacts : Compacts store runtime replacement) :
    LatestVersion.Covers (writes history) replacement.versions := by
  have hcovers := hholds.covers
  rw [hcompacts.sealed] at hcovers
  have hsegments :
      LatestVersion.Covers (writes history) (runtime.segments.flatMap Segment.versions) :=
    hcovers.congr fun v => by rw [writes_nil, List.append_nil]
  obtain ⟨other, hother, -, -, hmeaning, -⟩ := compactSegments_exists replacement.id
    hcompacts.several (fun segment hsegment =>
      ((hsound.numbered.runtime runtime hcompacts.running).segments segment hsegment).1.collection)
    (distinct_of_subset h hsegments.1) (versions_ne_nil hcompacts.replacement)
  cases hcompacts.replacement.symm.trans hother
  exact hsegments.trans hmeaning

theorem within_compacted (h : Kept state store history) (hsound : Sound state store replay)
    (hcompacts : Compacts store runtime replacement) : replacement.Within history := by
  have hrunning := hcompacts.running
  refine ⟨(covers_compacted h.counted hsound (h.runtime runtime hrunning) hcompacts).1, ?_⟩
  exact (UInt64.le_iff_toNat_le.mp (hsound.le_representedSequence hcompacts)).trans
    (h.represented_le hsound hrunning)

theorem represents_compacted (h : Kept state store history) (hsound : Sound state store replay)
    (hcompacts : Compacts store runtime replacement) (hlast : PublishedLast store replacement) :
    (WriteService.compactedCheckpoint state runtime replacement).Represents history
      store.dir.segments.files := by
  have hholds := h.runtime runtime hcompacts.running
  have hbacked := hsound.backed_compacted hcompacts hlast
  have hall : upTo (WriteService.representedSequence runtime) history = history :=
    upTo_eq (le_represented h.counted hsound hcompacts.running hholds hcompacts.sealed)
  refine ⟨h.represented_le hsound hcompacts.running, ?_⟩
  change LatestVersion.Covers (writes (upTo (WriteService.representedSequence runtime) history)) _
  rw [hall]
  refine LatestVersion.Covers.congr ?_ (mem_versions hsound hbacked.segments (hbacked.named _ rfl))
  change LatestVersion.Covers _ ([replacement].flatMap Segment.versions)
  rw [List.flatMap_singleton]
  exact covers_compacted h.counted hsound hholds hcompacts

theorem holds_compacted (h : Kept state store history) (hsound : Sound state store replay)
    (hcompacts : Compacts store runtime replacement) :
    (WriteService.compactedRuntime runtime replacement
      (WriteService.compactedCheckpoint state runtime replacement)).Holds history := by
  have hholds := h.runtime runtime hcompacts.running
  refine ⟨hholds.next, hholds.mutable, ?_, fun checkpoint hsome => ?_⟩
  · change LatestVersion.Covers _ ([replacement].flatMap Segment.versions ++ writes runtime.mutable)
    rw [hcompacts.sealed, List.flatMap_singleton, writes_nil, List.append_nil]
    exact covers_compacted h.counted hsound hholds hcompacts
  · cases hsome
    exact h.represented_le hsound hcompacts.running

/-- The checkpoint does not name what is collected. -/
theorem collect (h : Kept state store history) {checkpoint : Checkpoint} {id : SegmentId}
    (hsound : ∃ replay, Sound state (store.updateDir fun dir =>
      { dir with segments := dir.segments.deleteSegment id }) replay)
    (hexact : ∃ entries, LogExact (store.updateDir fun dir =>
      { dir with segments := dir.segments.deleteSegment id }) entries)
    (hcheckpointed : Checkpointed store runtime checkpoint) (hid : id ∉ checkpoint.segments) :
    Kept state (store.updateDir fun dir =>
      { dir with segments := dir.segments.deleteSegment id }) history := by
  refine h.dir hsound hexact rfl (fun segment hsegment => h.files segment
    (List.mem_of_mem_filter hsegment)) (fun other hother => ?_) fun _ _ hlt => hlt
  obtain ⟨hended, hcovers⟩ := h.checkpoint other hother
  cases hother.symm.trans hcheckpointed.stored
  refine ⟨hended, hcovers.congr fun v => ?_⟩
  change v ∈ checkpoint.versions (store.dir.segments.deleteSegment id).files ↔ _
  have hsame : checkpoint.versions (store.dir.segments.deleteSegment id).files =
      checkpoint.versions store.dir.segments.files := by
    rw [SegmentStore.deleteSegment, Checkpoint.versions, List.filter_filter, Checkpoint.versions]
    congr 1
    refine List.filter_congr fun segment _ => ?_
    by_cases hmem : segment.id ∈ checkpoint.segments
    · have hne : segment.id ≠ id := fun heq => hid (heq ▸ hmem)
      simp [hmem, hne]
    · simp [hmem]
  rw [hsame]

end Compaction

/-! #### The log -/

section Log

variable {config : CollectionConfig} {runtime : CollectionRuntime} {mutations : List WalMutation}
  {next : SequenceNumber} {log : Wal}

theorem counted_appends (h : Kept state store history)
    (happends : Appends state store config runtime mutations next log)
    (hbound : (history ++ mutations).length < maxSequence) :
    Counted (history ++ mutations) ∧ next.toNat = (history ++ mutations).length + 1 := by
  obtain ⟨batch, -, hnumbered⟩ := happends.batch
  exact h.counted.append hnumbered (h.runtime runtime happends.running).next hbound

theorem lt_appended (h : Kept state store history)
    (happends : Appends state store config runtime mutations next log) :
    ∀ mutation ∈ mutations, history.length < mutation.sequenceNumber.toNat := by
  obtain ⟨batch, -, hnumbered⟩ := happends.batch
  intro mutation hmutation
  have hle := UInt64.le_iff_toNat_le.mp ((numberFrom_issued hnumbered).2 mutation hmutation).1
  rw [(h.runtime runtime happends.running).next] at hle
  exact hle

theorem holds_appended (h : Kept state store history)
    (happends : Appends state store config runtime mutations next log)
    (hbound : (history ++ mutations).length < maxSequence) :
    CollectionRuntime.Holds (history ++ mutations) { runtime with
      mutable := runtime.mutable ++ mutations
      wal := some ⟨log.syncPolicy, log.lastSequence⟩
      nextSequence := next } := by
  have hholds := h.runtime runtime happends.running
  refine ⟨(h.counted_appends happends hbound).2, ?_, ?_, fun checkpoint hcheckpoint => ?_⟩
  · obtain ⟨earlier, hhistory⟩ := hholds.mutable
    exact ⟨earlier, by rw [← hhistory, List.append_assoc]⟩
  · have hboth := hholds.covers.append (LatestVersion.Covers.refl (writes mutations))
    rwa [List.append_assoc, ← writes_append, ← writes_append] at hboth
  · rw [List.length_append]
    exact (hholds.ended checkpoint hcheckpoint).trans (Nat.le_add_right ..)

/-- What is on disk stays as it is, the log apart. -/
theorem appended (h : Kept state store history)
    (happends : Appends state store config runtime mutations next log)
    (hbound : (history ++ mutations).length < maxSequence) {after : Store F}
    (hsound : ∃ replay, Sound state after replay) (hexact : ∃ entries, LogExact after entries)
    (hdir : after.dir = { store.dir with wal := some log.file })
    (hruntime : ∀ runtime, after.runtime = some runtime → runtime.Holds (history ++ mutations)) :
    Kept state after (history ++ mutations) := by
  have hlater := h.lt_appended happends
  refine ⟨(h.counted_appends happends hbound).1, hsound, hexact, fun segment hsegment => ?_,
    fun checkpoint hcheckpoint => ?_, fun replay hreplay => ?_, hruntime⟩
  · rw [hdir] at hsegment
    obtain ⟨hknown, hended⟩ := h.files segment hsegment
    refine ⟨fun v hv => ?_, ?_⟩
    · rw [writes_append]
      exact List.mem_append_left _ (hknown v hv)
    · rw [List.length_append]
      exact hended.trans (Nat.le_add_right ..)
  · rw [hdir] at hcheckpoint ⊢
    obtain ⟨hended, hcovers⟩ := h.checkpoint checkpoint hcheckpoint
    refine ⟨?_, ?_⟩
    · rw [List.length_append]
      exact hended.trans (Nat.le_add_right ..)
    · rwa [upTo_append fun mutation hmutation =>
        UInt64.lt_iff_toNat_lt.mpr (hended.trans_lt (hlater mutation hmutation))]
  · obtain ⟨entries, hentries⟩ := h.exact
    rw [hdir] at hreplay ⊢
    cases (hentries.replays_append happends).1.symm.trans hreplay
    obtain ⟨⟨earlier, hhistory⟩, hkept⟩ := h.log _ hentries.replays
    refine ⟨⟨earlier, ?_⟩, fun mutation hmutation hlt => ?_⟩
    · rw [← List.append_assoc, hhistory]
    · rcases List.mem_append.mp hmutation with hold | hnew
      · exact List.mem_append_left _ (hkept mutation hold hlt)
      · exact List.mem_append_right _ hnew

theorem setWal (h : Kept state store history) {wal : Option Bytes} {entries : List WalMutation}
    (hsound : ∃ replay, Sound state (store.updateDir fun dir => { dir with wal := wal }) replay)
    (hexact : ∃ entries, LogExact (store.updateDir fun dir => { dir with wal := wal }) entries)
    (hreplays : Wal.replayPath wal = .ok ⟨entries, 0⟩)
    (hlog : LogHolds history store.dir.checkpointSequence entries) :
    Kept state (store.updateDir fun dir => { dir with wal := wal }) history := by
  refine ⟨h.counted, hsound, hexact, h.files, h.checkpoint, fun replay hreplay => ?_, h.runtime⟩
  cases hreplays.symm.trans hreplay
  exact hlog

end Log

/-! #### Recovery -/

section Recovery

variable [DecidableEq F] {S : Type} [ScoreArith S] {runtime : CollectionRuntime}

theorem unsealed_eq {config : CollectionConfig} {sequence : SequenceNumber}
    {entries mutable : List WalMutation}
    (h : AppState.unsealed config sequence entries = .ok mutable) :
    mutable = entries.filter fun mutation => sequence < mutation.sequenceNumber := by
  induction entries generalizing mutable with
  | nil =>
    cases h
    rfl
  | cons entry rest ih =>
    unfold AppState.unsealed at h
    split at h
    · cases h
    · split at h
      · rename_i hsealed
        have hnot : ¬decide (sequence < entry.sequenceNumber) = true :=
          fun htrue => absurd (of_decide_eq_true htrue) (not_lt.mpr hsealed)
        rw [List.filter_cons, if_neg hnot]
        exact ih h
      · rename_i hlater
        obtain ⟨-, -, h⟩ := except_bind_ok.mp h
        obtain ⟨later, hrest, h⟩ := except_bind_ok.mp h
        cases h
        rw [List.filter_cons, if_pos (decide_eq_true (not_le.mp hlater)), ih hrest]

/-- The mutable list of a recovered runtime is what the log holds behind the checkpoint. -/
theorem mutable_recovered (hrecovers : Recovers S state store runtime) :
    ∃ replay, Wal.replayPath store.dir.wal = .ok replay ∧
      runtime.mutable = replay.entries.filter fun mutation =>
        store.dir.checkpointSequence < mutation.sequenceNumber := by
  obtain ⟨log, replay, hopened, -, hunsealed⟩ := hrecovers.log
  obtain ⟨first, -, hlog⟩ := except_bind_ok.mp hopened.opens
  cases hlog
  refine ⟨replay, ?_, unsealed_eq hunsealed⟩
  rw [Sound.replayPath_getD]
  exact hopened.replays

theorem covers_recovered (h : Kept state store history)
    (hrecovers : Recovers S state store runtime) :
    runtime.mutable <:+ history ∧ LatestVersion.Covers (writes history)
      (runtime.segments.flatMap Segment.versions ++ writes runtime.mutable) := by
  obtain ⟨replay, hsound⟩ := h.sound
  obtain ⟨opened, hopened, hmutable⟩ := mutable_recovered hrecovers
  obtain ⟨hsuffix, hlater⟩ := h.log opened hopened
  have hsegments := mem_of_liveSegments hrecovers.segments
  have hpairwise := h.counted.pairwise.sublist hsuffix.sublist
  have hmutables : runtime.mutable <:+ history := by
    rw [hmutable]
    exact (filter_suffix hpairwise).trans hsuffix
  refine ⟨hmutables, fun v hv => ?_, fun v hv => ?_⟩
  · rcases List.mem_append.mp hv with hsegment | hmem
    · obtain ⟨segment, hmem, hversion⟩ := List.mem_flatMap.mp hsegment
      exact (h.files segment (hsegments segment hmem)).known v hversion
    · exact (hmutables.sublist.map _).subset hmem
  · obtain ⟨mutation, hmutation, rfl⟩ := List.mem_map.mp hv.1
    by_cases hsealed : mutation.sequenceNumber ≤ store.dir.checkpointSequence
    · -- The checkpoint stands for this part of the history.
      refine List.mem_append_left _ ?_
      cases hcheckpoint : store.dir.checkpoint with
      | none =>
        rw [CollectionDir.checkpointSequence, hcheckpoint] at hsealed
        have hzero : mutation.sequenceNumber.toNat ≤ 0 := UInt64.le_iff_toNat_le.mp hsealed
        exact absurd (h.counted.bounds mutation hmutation).1 (not_lt.mpr hzero)
      | some checkpoint =>
        rw [CollectionDir.checkpointSequence, hcheckpoint] at hsealed
        have hnamed := (Sound.liveSegments_named hrecovers.segments hcheckpoint).1
        refine (mem_versions hsound hsegments hnamed _).mp
          ((h.checkpoint checkpoint hcheckpoint).covers.2 _ ⟨?_, fun w hw => hv.2 w ?_⟩)
        · exact List.mem_map_of_mem (mem_upTo.mpr ⟨hmutation, hsealed⟩)
        · exact (List.filter_sublist.map _).subset hw
    · have hnew := not_le.mp hsealed
      refine List.mem_append_right _ (List.mem_map_of_mem ?_)
      rw [hmutable]
      exact List.mem_filter.mpr ⟨hlater mutation hmutation hnew, decide_eq_true hnew⟩

theorem holds_recovered (h : Kept state store history) (hrecovers : Recovers S state store runtime)
    (hbound : history.length < maxSequence) : runtime.Holds history := by
  obtain ⟨replay, hsound⟩ := h.sound
  have hbacked := hsound.backed_recovered hrecovers
  obtain ⟨hmutables, hcovers⟩ := h.covers_recovered hrecovers
  have hcheckpoint : runtime.checkpoint = store.dir.checkpoint :=
    congrArg CollectionRuntime.checkpoint hrecovers.writable
  have hended : ∀ checkpoint, runtime.checkpoint = some checkpoint →
      checkpoint.sequenceNumber.toNat ≤ history.length := fun checkpoint hsome =>
    (h.checkpoint checkpoint (hcheckpoint.symm.trans hsome)).ended
  refine ⟨?_, hmutables, hcovers, hended⟩
  have hnext : runtime.nextSequence = (max (max
      (CollectionRuntime.maxOf (runtime.segments.map Segment.maxSequence))
      (CollectionRuntime.maxOf (runtime.mutable.map WalMutation.sequenceNumber)))
      ((store.dir.checkpoint.map Checkpoint.sequenceNumber).getD 0)).saturatingSucc :=
    congrArg CollectionRuntime.nextSequence hrecovers.writable
  generalize hsegmentMax : CollectionRuntime.maxOf (runtime.segments.map Segment.maxSequence) =
    segmentMax at hnext
  generalize hmutableMax :
    CollectionRuntime.maxOf (runtime.mutable.map WalMutation.sequenceNumber) = mutableMax at hnext
  generalize hcheckpointMax : (store.dir.checkpoint.map Checkpoint.sequenceNumber).getD 0 =
    checkpointMax at hnext
  have hlower : history.length ≤ (max (max segmentMax mutableMax) checkpointMax).toNat := by
    refine length_le_of_covers h.counted hcovers fun v hv => ?_
    rw [← UInt64.le_iff_toNat_le]
    refine le_trans ?_ (le_max_left ..)
    rcases List.mem_append.mp hv with hsegment | hmem
    · obtain ⟨segment, hmem, hversion⟩ := List.mem_flatMap.mp hsegment
      have hle := (hsound.numbered.files segment (hbacked.segments segment hmem)).bounded v hversion
      rw [← hsegmentMax]
      exact (hle.trans (le_maxOf (List.mem_map_of_mem hmem))).trans (le_max_left ..)
    · obtain ⟨mutation, hmutation, rfl⟩ := List.mem_map.mp hmem
      rw [← hmutableMax, WalMutation.version_sequence]
      exact (le_maxOf (List.mem_map_of_mem hmutation)).trans (le_max_right ..)
  have hupper : (max (max segmentMax mutableMax) checkpointMax).toNat ≤ history.length := by
    have hsegments : segmentMax.toNat ≤ history.length := by
      rw [← hsegmentMax]
      refine toNat_maxOf_le fun sequence hsequence => ?_
      obtain ⟨segment, hsegment, rfl⟩ := List.mem_map.mp hsequence
      exact (h.files segment (hbacked.segments segment hsegment)).ended
    have hmutable : mutableMax.toNat ≤ history.length := by
      rw [← hmutableMax]
      refine toNat_maxOf_le fun sequence hsequence => ?_
      obtain ⟨mutation, hmutation, rfl⟩ := List.mem_map.mp hsequence
      exact (h.counted.bounds mutation (hmutables.subset hmutation)).2
    have hstored : checkpointMax.toNat ≤ history.length := by
      rw [← hcheckpointMax]
      cases hsome : store.dir.checkpoint with
      | none => exact Nat.zero_le _
      | some checkpoint => exact (h.checkpoint checkpoint hsome).ended
    rcases max_choice (max segmentMax mutableMax) checkpointMax with hmax | hmax
    · rw [hmax]
      rcases max_choice segmentMax mutableMax with hinner | hinner
      · rwa [hinner]
      · rwa [hinner]
    · rwa [hmax]
  rw [hnext, SequenceNumber.toNat_saturatingSucc _ (by omega)]
  omega

end Recovery

/-! #### Steps -/

section Steps

variable [DecidableEq F] {S : Type} [ScoreArith S] {next : Store F} {logged : List WalMutation}

theorem step (h : Kept state store history) (hstep : Step S state store logged next)
    (hbound : (history ++ logged).length < maxSequence) : Kept state next (history ++ logged) := by
  obtain ⟨replay, hsound⟩ := h.sound
  obtain ⟨entries, hexact⟩ := h.exact
  have hsound' := hsound.step hstep fun _ => hexact.cleanLog
  have hexact' := hexact.step hstep
  cases hstep with
  | append happends =>
    refine h.appended happends hbound hsound' hexact' rfl fun runtime hruntime => ?_
    obtain ⟨before, hbefore, rfl⟩ := Option.map_eq_some_iff.mp hruntime
    cases happends.running.symm.trans hbefore
    exact h.holds_appended happends hbound
  | appendThenStop happends =>
    refine h.appended happends hbound hsound' hexact' rfl fun runtime hruntime => ?_
    cases hruntime
  | stop =>
    rw [List.append_nil]
    exact h.down
  | sealSegment hseals hid =>
    rw [List.append_nil]
    exact h.publish hsound' hexact' hid
      (within_sealed h.counted (h.runtime _ hseals.running) hseals).1
  | sealCheckpoint hseals hlast =>
    rw [List.append_nil]
    have hholds := h.runtime _ hseals.running
    exact h.setCheckpoint hsound' hexact' (represents_sealed h.counted hsound hholds hseals hlast)
      (le_sealed h.counted hholds hseals)
  | sealRuntime hseals hlast =>
    rw [List.append_nil]
    exact h.update hsound' hexact' fun _ _ _ =>
      holds_sealed h.counted (h.runtime _ hseals.running) hseals
  | compactSegment hcompacts hid =>
    rw [List.append_nil]
    exact h.publish hsound' hexact' hid (h.within_compacted hsound hcompacts)
  | compactCheckpoint hcompacts hlast =>
    rw [List.append_nil]
    exact h.setCheckpoint hsound' hexact' (h.represents_compacted hsound hcompacts hlast)
      (le_represented h.counted hsound hcompacts.running (h.runtime _ hcompacts.running)
        hcompacts.sealed)
  | compactRuntime hcompacts hlast =>
    rw [List.append_nil]
    exact h.update hsound' hexact' fun _ _ _ => h.holds_compacted hsound hcompacts
  | collect hcheckpointed hid =>
    rw [List.append_nil]
    exact h.collect hsound' hexact' hcheckpointed hid
  | closeWal =>
    rw [List.append_nil]
    exact h.update hsound' hexact' fun _ _ hholds =>
      ⟨hholds.next, hholds.mutable, hholds.covers, hholds.ended⟩
  | reclaimWal hcheckpointed hsealed =>
    rw [List.append_nil]
    refine h.setWal hsound' hexact' (Wal.decodeFrames_nil none) ⟨List.nil_suffix, ?_⟩
    intro mutation hmutation hlt
    -- Everything has been sealed, so nothing is later than the checkpoint.
    have hle := le_represented h.counted hsound hcheckpointed.running
      (h.runtime _ hcheckpointed.running) hsealed mutation hmutation
    rw [WriteService.representedSequence, hcheckpointed.current] at hle
    rw [CollectionDir.checkpointSequence, hcheckpointed.stored] at hlt
    exact absurd hlt (not_lt.mpr hle)
  | createWal hopens =>
    rw [List.append_nil]
    refine h.setWal hsound' hexact' ?_ (h.log _ hexact.replays)
    have hreplays := hexact.replays
    rwa [Sound.replayPath_getD, ← (hexact.lastSequence_opened hopens).1] at hreplays
  | openWal =>
    rw [List.append_nil]
    exact h.update hsound' hexact' fun _ _ hholds =>
      ⟨hholds.next, hholds.mutable, hholds.covers, hholds.ended⟩
  | publishHnsw =>
    rw [List.append_nil]
    exact h.dir hsound' hexact' rfl h.files h.checkpoint fun _ _ hlt => hlt
  | setHnsw =>
    rw [List.append_nil]
    exact h.update hsound' hexact' fun _ _ hholds =>
      ⟨hholds.next, hholds.mutable, hholds.covers, hholds.ended⟩
  | recover hrecovers =>
    rw [List.append_nil] at hbound ⊢
    refine ⟨h.counted, hsound', hexact', h.files, h.checkpoint, h.log, fun runtime hruntime => ?_⟩
    cases hruntime
    exact h.holds_recovered hrecovers hbound

theorem steps (h : Kept state store history) (hsteps : Steps S state store logged next)
    (hbound : (history ++ logged).length < maxSequence) : Kept state next (history ++ logged) := by
  induction hsteps with
  | refl => rwa [List.append_nil]
  | tail _ hstep ih =>
    rw [← List.append_assoc] at hbound ⊢
    refine (ih ?_).step hstep hbound
    rw [List.length_append] at hbound
    omega

end Steps

end Kept

end StoreStep

end Ketebe
