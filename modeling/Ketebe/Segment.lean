import Ketebe.Lib.LatestVersion
import Ketebe.WalAppend
import Mathlib.Data.List.Pairwise

/-!
Immutable segments. A segment is built from mutations in sequence order and
keeps, for every record id, the record or the tombstone of its latest mutation.
-/
namespace Ketebe

open Lib.LatestVersion

abbrev SegmentId := UInt64

structure Tombstone where
  recordId : RecordId
  sequenceNumber : SequenceNumber
  deriving DecidableEq

structure Segment where
  id : SegmentId
  collectionId : CollectionId
  minSequence : SequenceNumber
  maxSequence : SequenceNumber
  records : List Record
  tombstones : List Tombstone

inductive SegmentError where
  | io
  | emptyMutationSet
  | collectionMismatch
  | sequenceRegression (previous current : UInt64)
  | invalidMagic
  | unsupportedVersion (version : UInt8)
  | checksumMismatch
  | corrupt (message : String)
  | domain (message : String)
  | alreadyExists
  | backend
  deriving DecidableEq, Repr

/-- What one mutation says about its record: a value, or none once deleted. -/
abbrev RecordVersion := Version RecordId SequenceNumber (Option Record)

def WalMutation.version : WalMutation → RecordVersion
  | .upsert _ record => ⟨record.id, record.sequenceNumber, some record⟩
  | .delete _ recordId sequenceNumber => ⟨recordId, sequenceNumber, none⟩

@[simp] theorem WalMutation.version_key (mutation : WalMutation) :
    mutation.version.key = mutation.recordId := by
  cases mutation <;> rfl

@[simp] theorem WalMutation.version_sequence (mutation : WalMutation) :
    mutation.version.sequence = mutation.sequenceNumber := by
  cases mutation <;> rfl

def Record.version (record : Record) : RecordVersion :=
  ⟨record.id, record.sequenceNumber, some record⟩

def Tombstone.version (tombstone : Tombstone) : RecordVersion :=
  ⟨tombstone.recordId, tombstone.sequenceNumber, none⟩

namespace Segment

/-- The versions in a segment, records before tombstones as readers visit them. -/
def versions (segment : Segment) : List RecordVersion :=
  segment.records.map Record.version ++ segment.tombstones.map Tombstone.version

/-- The loop state of `from_mutations`. -/
structure Draft where
  previous : Option SequenceNumber
  records : Std.ExtTreeMap RecordId Record compare
  tombstones : Std.ExtTreeMap RecordId SequenceNumber compare
  minSequence : Option SequenceNumber
  maxSequence : Option SequenceNumber

namespace Draft

def empty : Draft := ⟨none, ∅, ∅, none, none⟩

def apply (draft : Draft) : WalMutation → Draft
  | .upsert _ record =>
      { draft with
        records := draft.records.insert record.id record
        tombstones := draft.tombstones.erase record.id }
  | .delete _ recordId sequenceNumber =>
      { draft with
        records := draft.records.erase recordId
        tombstones := draft.tombstones.insert recordId sequenceNumber }

/-- One iteration: both checks, the bounds, then the mutation itself. -/
def add (collectionId : CollectionId) (draft : Draft) (mutation : WalMutation) :
    Except SegmentError Draft :=
  if mutation.collectionId ≠ collectionId then .error .collectionMismatch
  else match draft.previous with
    | some previous =>
        if mutation.sequenceNumber ≤ previous then
          .error (.sequenceRegression previous mutation.sequenceNumber)
        else .ok (advance draft mutation)
    | none => .ok (advance draft mutation)
where
  advance (draft : Draft) (mutation : WalMutation) : Draft :=
    apply { draft with
      previous := some mutation.sequenceNumber
      minSequence := draft.minSequence.or (some mutation.sequenceNumber)
      maxSequence := some mutation.sequenceNumber } mutation

def addAll (collectionId : CollectionId) (draft : Draft) :
    List WalMutation → Except SegmentError Draft
  | [] => .ok draft
  | mutation :: rest => do
      let next ← draft.add collectionId mutation
      next.addAll collectionId rest

end Draft

def fromMutations (id : SegmentId) (mutations : List WalMutation) : Except SegmentError Segment :=
  match mutations with
  | [] => .error .emptyMutationSet
  | first :: _ => do
      let draft ← Draft.empty.addAll first.collectionId mutations
      pure {
        id := id
        collectionId := first.collectionId
        minSequence := draft.minSequence.getD 0
        maxSequence := draft.maxSequence.getD 0
        records := draft.records.toList.map Prod.snd
        tombstones := draft.tombstones.toList.map fun entry => ⟨entry.1, entry.2⟩ }

/-! ### What a segment keeps -/

/-- The versions that a list of mutations writes. -/
def writes (mutations : List WalMutation) : List RecordVersion :=
  mutations.map WalMutation.version

theorem lt_of_increasing {done : List WalMutation} {mutation : WalMutation}
    (h : Wal.Increasing none (done ++ [mutation])) :
    ∀ v ∈ writes done, v.sequence < mutation.sequenceNumber := by
  intro v hv
  obtain ⟨earlier, hearlier, rfl⟩ := List.mem_map.mp hv
  obtain ⟨-, hpairwise⟩ := Wal.increasing_iff_pairwise.mp h
  rw [List.pairwise_append] at hpairwise
  rw [WalMutation.version_sequence]
  exact hpairwise.2.2 earlier hearlier mutation (List.mem_singleton_self _)

/-- No two mutations of an increasing list have the same sequence number. -/
theorem functional_writes {mutations : List WalMutation} {previous : Option SequenceNumber}
    (h : Wal.Increasing previous mutations) : Functional (writes mutations) := by
  obtain ⟨-, hpairwise⟩ := Wal.increasing_iff_pairwise.mp h
  intro v hv w hw _ hsequence
  obtain ⟨first, hfirst, rfl⟩ := List.mem_map.mp hv
  obtain ⟨second, hsecond, rfl⟩ := List.mem_map.mp hw
  simp only [WalMutation.version_sequence] at hsequence
  have hsymm : Std.Symm fun a b : WalMutation => a.sequenceNumber ≠ b.sequenceNumber :=
    ⟨fun _ _ h => h.symm⟩
  have hdistinct := (hpairwise.imp fun h => ne_of_lt h).forall hfirst hsecond
  by_contra hne
  exact hdistinct (fun heq => hne (by rw [heq])) hsequence

/-- What the loop has read so far determines the draft. -/
structure Draft.Represents (collectionId : CollectionId) (draft : Draft)
    (done : List WalMutation) : Prop where
  previous : draft.previous = Wal.lastSequenceOf none done
  increasing : Wal.Increasing none done
  collection : ∀ mutation ∈ done, mutation.collectionId = collectionId
  minimum : draft.minSequence = done.head?.map WalMutation.sequenceNumber
  maximum : draft.maxSequence = Wal.lastSequenceOf none done
  record : ∀ (key : RecordId) (record : Record), draft.records[key]? = some record ↔
    key = record.id ∧ Latest (writes done) record.version
  tombstone : ∀ key sequence, draft.tombstones[key]? = some sequence ↔
    Latest (writes done) ⟨key, sequence, none⟩

theorem Draft.empty_represents (collectionId : CollectionId) :
    Draft.empty.Represents collectionId [] where
  previous := rfl
  increasing := trivial
  collection := nofun
  minimum := rfl
  maximum := rfl
  record key record := by simp [Draft.empty, writes, Latest]
  tombstone key sequence := by simp [Draft.empty, writes, Latest]

theorem Draft.Represents.advance {collectionId : CollectionId} {draft : Draft}
    {done : List WalMutation} {mutation : WalMutation} (h : draft.Represents collectionId done)
    (hcollection : mutation.collectionId = collectionId)
    (hfollows : Wal.Follows draft.previous mutation.sequenceNumber) :
    (Draft.add.advance draft mutation).Represents collectionId (done ++ [mutation]) := by
  have hincreasing : Wal.Increasing none (done ++ [mutation]) := by
    rw [Wal.increasing_append]
    refine ⟨h.increasing, ?_, trivial⟩
    rwa [← h.previous]
  have hlatest (v : RecordVersion) : Latest (writes (done ++ [mutation])) v ↔
      v = mutation.version ∨ v.key ≠ mutation.recordId ∧ Latest (writes done) v := by
    rw [writes, List.map_append, List.map_singleton]
    have hnew : Latest (writes done ++ [mutation.version]) v ↔
        v = mutation.version ∨ v.key ≠ mutation.version.key ∧ Latest (writes done) v :=
      latest_append_singleton (by simpa using lt_of_increasing hincreasing)
    rwa [WalMutation.version_key] at hnew
  have hlast : some mutation.sequenceNumber = Wal.lastSequenceOf none (done ++ [mutation]) := by
    rw [Wal.lastSequenceOf_append]
    rfl
  have hminimum : draft.minSequence.or (some mutation.sequenceNumber) =
      (done ++ [mutation]).head?.map WalMutation.sequenceNumber := by
    rw [h.minimum]
    cases done <;> rfl
  have hall : ∀ other ∈ done ++ [mutation], other.collectionId = collectionId := by
    intro other hother
    rcases List.mem_append.mp hother with hold | hsingle
    · exact h.collection other hold
    · rwa [List.mem_singleton.mp hsingle]
  cases mutation with
  | upsert mutationCollection new =>
    refine ⟨hlast, hincreasing, hall, hminimum, hlast, fun key record => ?_, fun key sequence => ?_⟩
    · simp only [add.advance, apply, Std.ExtTreeMap.getElem?_insert, hlatest,
        compare_eq_iff_eq, WalMutation.recordId]
      by_cases hkey : new.id = key
      · subst hkey
        simp only [if_true, Option.some.injEq]
        constructor
        · rintro rfl
          exact ⟨rfl, Or.inl rfl⟩
        · rintro ⟨hid, hversion | ⟨hne, -⟩⟩
          · exact (Option.some.inj (congrArg Version.value hversion)).symm
          · exact absurd hid.symm hne
      · rw [if_neg hkey, h.record]
        constructor
        · rintro ⟨rfl, hrecord⟩
          exact ⟨rfl, Or.inr ⟨fun heq => hkey heq.symm, hrecord⟩⟩
        · rintro ⟨rfl, hversion | ⟨-, hrecord⟩⟩
          · exact absurd (congrArg Version.key hversion).symm hkey
          · exact ⟨rfl, hrecord⟩
    · simp only [add.advance, apply, Std.ExtTreeMap.getElem?_erase, hlatest,
        compare_eq_iff_eq, WalMutation.recordId]
      by_cases hkey : new.id = key
      · subst hkey
        simp [WalMutation.version]
      · rw [if_neg hkey, h.tombstone]
        have hne : key ≠ new.id := fun heq => hkey heq.symm
        simp [WalMutation.version, hne]
  | delete mutationCollection deletedId deletedSequence =>
    refine ⟨hlast, hincreasing, hall, hminimum, hlast, fun key record => ?_, fun key sequence => ?_⟩
    · simp only [add.advance, apply, Std.ExtTreeMap.getElem?_erase, hlatest,
        compare_eq_iff_eq, WalMutation.recordId]
      by_cases hkey : deletedId = key
      · subst hkey
        simp only [if_true]
        constructor
        · intro h
          cases h
        · rintro ⟨hid, hversion | ⟨hne, -⟩⟩
          · cases congrArg Version.value hversion
          · exact absurd hid.symm hne
      · rw [if_neg hkey, h.record]
        constructor
        · rintro ⟨rfl, hrecord⟩
          exact ⟨rfl, Or.inr ⟨fun heq => hkey heq.symm, hrecord⟩⟩
        · rintro ⟨rfl, hversion | ⟨-, hrecord⟩⟩
          · cases congrArg Version.value hversion
          · exact ⟨rfl, hrecord⟩
    · simp only [add.advance, apply, Std.ExtTreeMap.getElem?_insert, hlatest,
        compare_eq_iff_eq, WalMutation.recordId]
      by_cases hkey : deletedId = key
      · subst hkey
        simp [WalMutation.version, eq_comm]
      · rw [if_neg hkey, h.tombstone]
        have hne : key ≠ deletedId := fun heq => hkey heq.symm
        simp [WalMutation.version, hne]

theorem Draft.add_ok_iff {collectionId : CollectionId} {draft next : Draft}
    {mutation : WalMutation} : draft.add collectionId mutation = .ok next ↔
      mutation.collectionId = collectionId ∧
        Wal.Follows draft.previous mutation.sequenceNumber ∧
          next = Draft.add.advance draft mutation := by
  unfold Draft.add
  by_cases hcollection : mutation.collectionId = collectionId
  · rw [if_neg (not_not.mpr hcollection)]
    cases hprevious : draft.previous with
    | none => simp [hcollection, Wal.Follows, eq_comm]
    | some previous =>
      by_cases hle : mutation.sequenceNumber ≤ previous
      · simp [hle, Wal.Follows]
      · simp [hle, hcollection, Wal.Follows, not_le.mp hle, eq_comm]
  · simp [hcollection]

theorem Draft.Represents.addAll {collectionId : CollectionId} {draft final : Draft}
    {done mutations : List WalMutation} (h : draft.Represents collectionId done)
    (hadd : draft.addAll collectionId mutations = .ok final) :
    final.Represents collectionId (done ++ mutations) := by
  induction mutations generalizing draft done with
  | nil =>
    cases hadd
    rwa [List.append_nil]
  | cons mutation rest ih =>
    obtain ⟨next, hnext, hrest⟩ := Lib.ByteCodec.except_bind_ok.mp hadd
    obtain ⟨hcollection, hfollows, rfl⟩ := Draft.add_ok_iff.mp hnext
    have hfinal := ih (h.advance hcollection hfollows) hrest
    rwa [List.append_assoc] at hfinal

theorem Draft.addAll_exists {collectionId : CollectionId} (draft : Draft)
    {mutations : List WalMutation} (hincreasing : Wal.Increasing draft.previous mutations)
    (hcollection : ∀ mutation ∈ mutations, mutation.collectionId = collectionId) :
    ∃ final, draft.addAll collectionId mutations = .ok final := by
  induction mutations generalizing draft with
  | nil => exact ⟨draft, rfl⟩
  | cons mutation rest ih =>
    have hadd := Draft.add_ok_iff.mpr ⟨hcollection mutation (List.mem_cons_self ..),
      hincreasing.1, rfl⟩
    have hprevious : (Draft.add.advance draft mutation).previous =
        some mutation.sequenceNumber := by
      cases mutation <;> rfl
    have hrest : Wal.Increasing (Draft.add.advance draft mutation).previous rest := by
      rw [hprevious]
      exact hincreasing.2
    obtain ⟨final, hfinal⟩ := ih _ hrest fun other hother =>
      hcollection other (List.mem_cons_of_mem _ hother)
    exact ⟨final, Lib.ByteCodec.except_bind_ok.mpr ⟨_, hadd, hfinal⟩⟩

/-- The segment is what these mutations fold to. -/
structure Summarizes (segment : Segment) (mutations : List WalMutation) : Prop where
  increasing : Wal.Increasing none mutations
  collection : ∀ mutation ∈ mutations, mutation.collectionId = segment.collectionId
  minimum : some segment.minSequence = mutations.head?.map WalMutation.sequenceNumber
  maximum : some segment.maxSequence = Wal.lastSequenceOf none mutations
  version : ∀ v, v ∈ segment.versions ↔ Latest (writes mutations) v

theorem fromMutations_summarizes {id : SegmentId} {mutations : List WalMutation}
    {segment : Segment} (h : fromMutations id mutations = .ok segment) :
    segment.id = id ∧ segment.Summarizes mutations := by
  unfold fromMutations at h
  split at h
  · cases h
  · rename_i first rest
    obtain ⟨draft, hdraft, h⟩ := Lib.ByteCodec.except_bind_ok.mp h
    cases h
    have hrepresents := (Draft.empty_represents first.collectionId).addAll hdraft
    rw [List.nil_append] at hrepresents
    obtain ⟨last, hlast⟩ := Wal.lastSequenceOf_cons none first rest
    refine ⟨rfl, hrepresents.increasing, hrepresents.collection, ?_, ?_, fun v => ?_⟩
    · rw [hrepresents.minimum]
      rfl
    · rw [hrepresents.maximum, hlast]
      rfl
    · rw [versions, List.mem_append]
      constructor
      · rintro (hv | hv)
        · simp only [List.map_map, List.mem_map, Prod.exists] at hv
          obtain ⟨key, record, hmem, rfl⟩ := hv
          rw [Std.ExtTreeMap.mem_toList_iff_getElem?_eq_some] at hmem
          exact ((hrepresents.record key record).mp hmem).2
        · simp only [List.map_map, List.mem_map, Prod.exists] at hv
          obtain ⟨key, sequence, hmem, rfl⟩ := hv
          rw [Std.ExtTreeMap.mem_toList_iff_getElem?_eq_some] at hmem
          exact (hrepresents.tombstone key sequence).mp hmem
      · intro hlatest
        obtain ⟨mutation, -, hversion⟩ := List.mem_map.mp hlatest.1
        cases mutation with
        | upsert collectionId record =>
          refine Or.inl ?_
          simp only [List.map_map, List.mem_map, Prod.exists]
          refine ⟨record.id, record, ?_, hversion⟩
          rw [Std.ExtTreeMap.mem_toList_iff_getElem?_eq_some]
          exact (hrepresents.record record.id record).mpr ⟨rfl, by rwa [← hversion] at hlatest⟩
        | delete collectionId recordId sequence =>
          refine Or.inr ?_
          simp only [List.map_map, List.mem_map, Prod.exists]
          refine ⟨recordId, sequence, ?_, hversion⟩
          rw [Std.ExtTreeMap.mem_toList_iff_getElem?_eq_some]
          exact (hrepresents.tombstone recordId sequence).mpr (by rwa [← hversion] at hlatest)

/-- Mutations of one collection in sequence order can always be made a segment. -/
theorem fromMutations_exists (id : SegmentId) {mutations : List WalMutation}
    {collectionId : CollectionId} (hnonempty : mutations ≠ [])
    (hincreasing : Wal.Increasing none mutations)
    (hcollection : ∀ mutation ∈ mutations, mutation.collectionId = collectionId) :
    ∃ segment, fromMutations id mutations = .ok segment ∧ segment.collectionId = collectionId := by
  cases mutations with
  | nil => exact absurd rfl hnonempty
  | cons first rest =>
    have hfirst : first.collectionId = collectionId := hcollection first (List.mem_cons_self ..)
    rw [← hfirst] at hcollection
    obtain ⟨draft, hdraft⟩ := Draft.empty.addAll_exists hincreasing hcollection
    exact ⟨_, Lib.ByteCodec.except_bind_ok.mpr ⟨draft, hdraft, rfl⟩, hfirst⟩

namespace Summarizes

variable {segment : Segment} {mutations : List WalMutation}

/-- A segment forgets only mutations that a later one replaced. -/
theorem covers (h : segment.Summarizes mutations) : Covers (writes mutations) segment.versions :=
  ⟨fun v hv => ((h.version v).mp hv).1, fun v hv => (h.version v).mpr hv⟩

theorem nonempty (h : segment.Summarizes mutations) : mutations ≠ [] := by
  rintro rfl
  cases h.minimum

/-- The last mutation of a segment is the newest one. -/
theorem last (h : segment.Summarizes mutations) :
    ∃ mutation ∈ mutations, mutation.sequenceNumber = segment.maxSequence ∧
      ∀ other ∈ mutations, other.sequenceNumber ≤ mutation.sequenceNumber := by
  have hlast := h.maximum
  rw [← Wal.getLast?_sequenceNumber, eq_comm, Option.map_eq_some_iff] at hlast
  obtain ⟨mutation, hmutation, hsequence⟩ := hlast
  obtain ⟨earlier, rfl⟩ := List.getLast?_eq_some_iff.mp hmutation
  refine ⟨mutation, by simp, hsequence, fun other hother => ?_⟩
  rcases List.mem_append.mp hother with hearlier | hsingle
  · have hlt := lt_of_increasing h.increasing other.version (List.mem_map_of_mem hearlier)
    rw [WalMutation.version_sequence] at hlt
    exact hlt.le
  · rw [List.mem_singleton.mp hsingle]

theorem le_maxSequence (h : segment.Summarizes mutations) {v : RecordVersion}
    (hv : v ∈ segment.versions) : v.sequence ≤ segment.maxSequence := by
  obtain ⟨mutation, hmutation, rfl⟩ := List.mem_map.mp ((h.version v).mp hv).1
  obtain ⟨last, -, hmaximum, hle⟩ := h.last
  rw [WalMutation.version_sequence, ← hmaximum]
  exact hle mutation hmutation

/-- No later mutation of its record replaces the newest one. -/
theorem exists_maxSequence (h : segment.Summarizes mutations) :
    ∃ v ∈ segment.versions, v.sequence = segment.maxSequence := by
  obtain ⟨last, hmem, hmaximum, hle⟩ := h.last
  refine ⟨last.version, (h.version _).mpr ⟨List.mem_map_of_mem hmem, fun w hw _ => ?_⟩, ?_⟩
  · obtain ⟨other, hother, rfl⟩ := List.mem_map.mp hw
    simp only [WalMutation.version_sequence]
    exact hle other hother
  · rw [WalMutation.version_sequence, hmaximum]

theorem minSequence_le (h : segment.Summarizes mutations) :
    segment.minSequence ≤ segment.maxSequence := by
  obtain ⟨last, -, hmaximum, hle⟩ := h.last
  obtain ⟨first, hfirst, hminimum⟩ := Option.map_eq_some_iff.mp h.minimum.symm
  rw [← hminimum, ← hmaximum]
  exact hle first (List.mem_of_mem_head? hfirst)

end Summarizes

end Segment

end Ketebe
