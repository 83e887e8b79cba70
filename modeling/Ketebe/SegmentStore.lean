import Ketebe.Lib.SortedSet
import Ketebe.Scope
import Ketebe.Segment

/-!
The files of a collection around its segments: the store of published
segments, the checkpoint that names the live ones, and compaction, which folds
several segments into one.
-/
namespace Ketebe

open Lib.LatestVersion Lib.SortedSet

/-- Names the live segments and the last mutation that they represent. -/
structure Checkpoint where
  collectionId : CollectionId
  segments : List SegmentId
  sequenceNumber : SequenceNumber
  sorted : segments.Pairwise (· < ·)
  deriving DecidableEq

namespace Checkpoint

def new (collectionId : CollectionId) (segments : List SegmentId)
    (sequenceNumber : SequenceNumber) : Checkpoint :=
  ⟨collectionId, sortDedup segments, sequenceNumber, pairwise_sortDedup segments⟩

@[simp] theorem mem_segments_new {collectionId : CollectionId} {segments : List SegmentId}
    {sequenceNumber : SequenceNumber} {id : SegmentId} :
    id ∈ (new collectionId segments sequenceNumber).segments ↔ id ∈ segments :=
  mem_sortDedup

theorem ext_mem {checkpoint checkpoint' : Checkpoint}
    (hcollection : checkpoint.collectionId = checkpoint'.collectionId)
    (hsequence : checkpoint.sequenceNumber = checkpoint'.sequenceNumber)
    (hsegments : ∀ id, id ∈ checkpoint.segments ↔ id ∈ checkpoint'.segments) :
    checkpoint = checkpoint' := by
  have hlist := eq_of_pairwise_of_mem checkpoint.sorted checkpoint'.sorted hsegments
  cases checkpoint
  cases checkpoint'
  cases hcollection
  cases hsequence
  cases hlist
  rfl

end Checkpoint

/-- The published segment files. -/
structure SegmentStore where
  files : List Segment

namespace SegmentStore

def «exists» (store : SegmentStore) (id : SegmentId) : Bool :=
  store.files.any fun segment => segment.id = id

/-- The file that `publish` adds; it never replaces one. -/
def publish (store : SegmentStore) (segment : Segment) : SegmentStore :=
  ⟨store.files ++ [segment]⟩

def openSegment (store : SegmentStore) (id : SegmentId) : Except SegmentError Segment :=
  match store.files.find? fun segment => segment.id = id with
  | some segment => .ok segment
  | none => .error .io

/-- The order of `discover`: by first sequence number, then by id. -/
def precedes (left right : Segment) : Bool :=
  left.minSequence < right.minSequence ||
    (left.minSequence = right.minSequence && left.id ≤ right.id)

def discover (store : SegmentStore) : List Segment := store.files.mergeSort precedes

def listSegmentIds (store : SegmentStore) : List SegmentId :=
  (store.files.map Segment.id).mergeSort fun left right => left ≤ right

def deleteSegment (store : SegmentStore) (id : SegmentId) : SegmentStore :=
  ⟨store.files.filter fun segment => segment.id ≠ id⟩

/-- One more than the largest id, unless ids are exhausted. -/
def nextSegmentId (store : SegmentStore) : Option SegmentId :=
  let last := (store.discover.map Segment.id).foldl max 0
  if last.toNat < maxSequence then some (last + 1) else none

@[simp] theorem mem_discover {store : SegmentStore} {segment : Segment} :
    segment ∈ store.discover ↔ segment ∈ store.files :=
  List.mem_mergeSort

@[simp] theorem mem_listSegmentIds {store : SegmentStore} {id : SegmentId} :
    id ∈ store.listSegmentIds ↔ ∃ segment ∈ store.files, segment.id = id := by
  rw [listSegmentIds, List.mem_mergeSort, List.mem_map]

theorem openSegment_ok {store : SegmentStore} {segment : Segment}
    (hids : (store.files.map Segment.id).Nodup) (hmem : segment ∈ store.files) :
    store.openSegment segment.id = .ok segment := by
  unfold openSegment
  cases hfind : store.files.find? fun other => decide (other.id = segment.id) with
  | none =>
    have hnone := List.find?_eq_none.mp hfind segment hmem
    simp at hnone
  | some other =>
    have hid : other.id = segment.id := by simpa using List.find?_some hfind
    rw [List.inj_on_of_nodup_map hids (List.mem_of_find?_eq_some hfind) hmem hid]

theorem le_foldl_max (ids : List SegmentId) (start : SegmentId) :
    start ≤ ids.foldl max start ∧ ∀ id ∈ ids, id ≤ ids.foldl max start := by
  induction ids generalizing start with
  | nil => exact ⟨le_refl _, nofun⟩
  | cons head rest ih =>
    obtain ⟨hstart, hrest⟩ := ih (max start head)
    refine ⟨(le_max_left ..).trans hstart, fun id hid => ?_⟩
    rcases List.mem_cons.mp hid with rfl | hmem
    · exact (le_max_right ..).trans hstart
    · exact hrest id hmem

/-- A new id is larger than every id on disk. -/
theorem lt_nextSegmentId {store : SegmentStore} {id : SegmentId}
    (h : store.nextSegmentId = some id) : ∀ segment ∈ store.files, segment.id < id := by
  intro segment hsegment
  unfold nextSegmentId at h
  simp only [Option.ite_none_right_eq_some, Option.some.injEq] at h
  obtain ⟨hlt, rfl⟩ := h
  have hle := (le_foldl_max (store.discover.map Segment.id) 0).2 segment.id
    (List.mem_map_of_mem (mem_discover.mpr hsegment))
  rw [UInt64.le_iff_toNat_le] at hle
  unfold maxSequence at hlt
  rw [UInt64.lt_iff_toNat_lt, UInt64.toNat_add, UInt64.toNat_one]
  omega

end SegmentStore

/-! ### Compaction -/

inductive CompactionError where
  | segment (error : SegmentError)
  | insufficientSegments
  | collectionMismatch
  deriving DecidableEq, Repr

/-- The mutation that a compacted segment is rebuilt from. -/
def mutationOf (collectionId : CollectionId) (version : RecordVersion) : WalMutation :=
  match version.value with
  | some record => .upsert collectionId record
  | none => .delete collectionId version.key version.sequence

/-- The mutations of the latest versions in sequence order. -/
def latestMutations (collectionId : CollectionId) (segments : List Segment) : List WalMutation :=
  ((versionsOf (fold (segments.flatMap Segment.versions))).map (mutationOf collectionId)).mergeSort
    fun left right => left.sequenceNumber ≤ right.sequenceNumber

def compactSegments (replacementId : SegmentId) (segments : List Segment) :
    Except CompactionError Segment :=
  match segments with
  | first :: second :: rest =>
      if (first :: second :: rest).any fun segment => segment.collectionId ≠ first.collectionId then
        .error .collectionMismatch
      else
        (Segment.fromMutations replacementId
          (latestMutations first.collectionId (first :: second :: rest))).mapError .segment
  | _ => .error .insufficientSegments

/-- The latest versions of a list of segments, sorted, as one segment keeps them. -/
theorem mem_latestMutations {collectionId : CollectionId} {segments : List Segment}
    {mutation : WalMutation} : mutation ∈ latestMutations collectionId segments ↔
      ∃ v ∈ versionsOf (fold (segments.flatMap Segment.versions)),
        mutationOf collectionId v = mutation := by
  rw [latestMutations, List.mem_mergeSort, List.mem_map]

theorem version_mutationOf {collectionId : CollectionId} {segment : Segment} {v : RecordVersion}
    (h : v ∈ segment.versions) : (mutationOf collectionId v).version = v := by
  rcases List.mem_append.mp h with hrecord | htombstone
  · obtain ⟨record, -, rfl⟩ := List.mem_map.mp hrecord
    rfl
  · obtain ⟨tombstone, -, rfl⟩ := List.mem_map.mp htombstone
    rfl

theorem collectionId_mutationOf (collectionId : CollectionId) (v : RecordVersion) :
    (mutationOf collectionId v).collectionId = collectionId := by
  unfold mutationOf
  split <;> rfl

/-- No two versions share a sequence number. -/
def Distinct (versions : List RecordVersion) : Prop :=
  ∀ v ∈ versions, ∀ w ∈ versions, v.sequence = w.sequence → v = w

theorem Distinct.functional {versions : List RecordVersion} (h : Distinct versions) :
    Functional versions := fun v hv w hw _ => h v hv w hw

section Compaction

variable {segments : List Segment} {collectionId : CollectionId}

theorem writes_latestMutations {v : RecordVersion}
    (hdistinct : Distinct (segments.flatMap Segment.versions)) :
    v ∈ Segment.writes (latestMutations collectionId segments) ↔
      v ∈ versionsOf (fold (segments.flatMap Segment.versions)) := by
  have hsource : ∀ w ∈ versionsOf (fold (segments.flatMap Segment.versions)),
      (mutationOf collectionId w).version = w := by
    intro w hw
    obtain ⟨segment, -, hversion⟩ :=
      List.mem_flatMap.mp ((covers_fold hdistinct.functional).1 w hw)
    exact version_mutationOf hversion
  simp only [Segment.writes, List.mem_map, mem_latestMutations]
  constructor
  · rintro ⟨mutation, ⟨w, hw, rfl⟩, rfl⟩
    rwa [hsource w hw]
  · intro hv
    exact ⟨mutationOf collectionId v, ⟨v, hv, rfl⟩, hsource v hv⟩

theorem covers_latestMutations (collectionId : CollectionId)
    (hdistinct : Distinct (segments.flatMap Segment.versions)) :
    Covers (segments.flatMap Segment.versions)
      (Segment.writes (latestMutations collectionId segments)) :=
  (covers_fold hdistinct.functional).congr fun _ => writes_latestMutations hdistinct

theorem nodup_versionsOf (table : Table RecordId SequenceNumber (Option Record)) :
    (versionsOf table).Nodup := by
  have hkeys := table.distinct_keys_toList
  rw [versionsOf]
  refine List.pairwise_map.mpr (hkeys.imp fun hne heq => hne ?_)
  simpa using congrArg Version.key heq

/-- Sorting by sequence number leaves no two equal ones. -/
theorem increasing_latestMutations (collectionId : CollectionId)
    (hdistinct : Distinct (segments.flatMap Segment.versions)) :
    Wal.Increasing none (latestMutations collectionId segments) := by
  have hsorted : (latestMutations collectionId segments).Pairwise
      fun left right => decide (left.sequenceNumber ≤ right.sequenceNumber) := by
    refine List.pairwise_mergeSort (fun a b c hab hbc => ?_) (fun a b => ?_) _
    · exact decide_eq_true (le_trans (of_decide_eq_true hab) (of_decide_eq_true hbc))
    · simpa using le_total a.sequenceNumber b.sequenceNumber
  have hnodup := nodup_versionsOf (fold (segments.flatMap Segment.versions))
  have hcovers := covers_fold hdistinct.functional
  have hdifferent : ((versionsOf (fold (segments.flatMap Segment.versions))).map
      (mutationOf collectionId)).Pairwise fun left right =>
        left.sequenceNumber ≠ right.sequenceNumber := by
    refine List.pairwise_map.mpr (hnodup.pairwise_of_forall_ne fun v hv w hw hne heq => hne ?_)
    have hsource (u : RecordVersion)
        (hu : u ∈ versionsOf (fold (segments.flatMap Segment.versions))) :
        (mutationOf collectionId u).sequenceNumber = u.sequence := by
      obtain ⟨segment, -, hversion⟩ := List.mem_flatMap.mp (hcovers.1 u hu)
      rw [← WalMutation.version_sequence, version_mutationOf hversion]
    rw [hsource v hv, hsource w hw] at heq
    exact hdistinct v (hcovers.1 v hv) w (hcovers.1 w hw) heq
  have hperm : (latestMutations collectionId segments).Pairwise fun left right =>
      left.sequenceNumber ≠ right.sequenceNumber :=
    ((List.mergeSort_perm _ _).pairwise_iff fun h => h.symm).mpr hdifferent
  rw [Wal.increasing_iff_pairwise]
  refine ⟨fun _ _ => nofun, ?_⟩
  refine (hsorted.and hperm).imp fun h => ?_
  exact lt_of_le_of_ne (of_decide_eq_true h.1) h.2

/-- Segments of one collection can be compacted, and the replacement keeps
every latest version. -/
theorem compactSegments_exists (replacementId : SegmentId) (hlen : 2 ≤ segments.length)
    (hcollection : ∀ segment ∈ segments, segment.collectionId = collectionId)
    (hdistinct : Distinct (segments.flatMap Segment.versions))
    (hnonempty : segments.flatMap Segment.versions ≠ []) : ∃ replacement,
      compactSegments replacementId segments = .ok replacement ∧
        replacement.id = replacementId ∧ replacement.collectionId = collectionId ∧
        Covers (segments.flatMap Segment.versions) replacement.versions ∧
        ∃ v ∈ segments.flatMap Segment.versions, v.sequence = replacement.maxSequence := by
  obtain ⟨first, second, rest, rfl⟩ : ∃ first second rest, segments = first :: second :: rest := by
    match segments, hlen with
    | first :: second :: rest, _ => exact ⟨first, second, rest, rfl⟩
  have hfirst : first.collectionId = collectionId := hcollection first (List.mem_cons_self ..)
  have hsame : ¬(first :: second :: rest).any fun segment =>
      decide (segment.collectionId ≠ first.collectionId) := by
    simp only [List.any_eq_true, decide_eq_true_eq, not_exists, not_and, not_not]
    intro segment hsegment
    rw [hfirst, hcollection segment hsegment]
  have hcovers := covers_latestMutations collectionId hdistinct
  have hincreasing := increasing_latestMutations collectionId hdistinct
  have hmutations : latestMutations collectionId (first :: second :: rest) ≠ [] := by
    intro hnil
    obtain ⟨v, hv⟩ := List.exists_mem_of_ne_nil _ hnonempty
    rcases fold_cases ((first :: second :: rest).flatMap Segment.versions) v.key with
      ⟨-, hunknown⟩ | ⟨w, -, -, hlatest⟩
    · exact hunknown v hv rfl
    · have hw := hcovers.2 w hlatest
      rw [hnil] at hw
      cases hw
  obtain ⟨replacement, hreplacement, hid⟩ := Segment.fromMutations_exists replacementId
    hmutations hincreasing fun mutation hmutation => by
      obtain ⟨v, -, rfl⟩ := mem_latestMutations.mp hmutation
      exact collectionId_mutationOf collectionId v
  obtain ⟨hrid, hsummary⟩ := Segment.fromMutations_summarizes hreplacement
  refine ⟨replacement, ?_, hrid, hid, hcovers.trans hsummary.covers, ?_⟩
  · rw [compactSegments, if_neg hsame, hfirst, hreplacement]
    rfl
  · have hlast := hsummary.maximum
    rw [← Wal.getLast?_sequenceNumber, eq_comm, Option.map_eq_some_iff] at hlast
    obtain ⟨last, hlast, hsequence⟩ := hlast
    refine ⟨last.version, hcovers.1 _ (List.mem_map_of_mem (List.mem_of_getLast? hlast)), ?_⟩
    rw [WalMutation.version_sequence, hsequence]

theorem compactSegments_summarizes {replacementId : SegmentId} {replacement : Segment}
    (h : compactSegments replacementId segments = .ok replacement) :
    replacement.id = replacementId ∧ ∃ mutations, replacement.Summarizes mutations := by
  unfold compactSegments at h
  split at h
  · split at h
    · cases h
    · obtain ⟨hid, hsummary⟩ :=
        Segment.fromMutations_summarizes (Lib.ByteCodec.mapError_ok_iff.mp h)
      exact ⟨hid, _, hsummary⟩
  · cases h

theorem compactSegments_id {replacementId : SegmentId} {replacement : Segment}
    (h : compactSegments replacementId segments = .ok replacement) :
    replacement.id = replacementId :=
  (compactSegments_summarizes h).1

end Compaction

end Ketebe
