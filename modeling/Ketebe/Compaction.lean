import Ketebe.Search
import Ketebe.SegmentStore

/-!
Compaction keeps the meaning of a collection. Whatever other segments stand
beside the compacted ones, and in whatever order readers visit them, they fold
to the table to which they folded before.
-/
namespace Ketebe

open Lib.LatestVersion

namespace Segment

/-- The segment comes from a list of mutations. -/
def Built (segment : Segment) : Prop :=
  ∃ mutations, fromMutations segment.id mutations = .ok segment

theorem Built.summarizes {segment : Segment} (h : segment.Built) :
    ∃ mutations, segment.Summarizes mutations := by
  obtain ⟨mutations, hmutations⟩ := h
  exact ⟨mutations, (fromMutations_summarizes hmutations).2⟩

end Segment

section Meaning

variable {compacted others : List Segment} {collectionId : CollectionId}

theorem versionsIn_of_collection {segments : List Segment}
    (h : ∀ segment ∈ segments, segment.collectionId = collectionId) :
    versionsIn segments collectionId = segments.flatMap Segment.versions := by
  rw [versionsIn, List.filter_eq_self.mpr fun segment hsegment =>
    decide_eq_true (h segment hsegment)]

/-- The table does not depend on the order of the segments. -/
theorem fold_versionsIn_perm {segments order : List Segment}
    (hfunctional : Functional (versionsIn segments collectionId)) (horder : order.Perm segments) :
    fold (versionsIn order collectionId) = fold (versionsIn segments collectionId) := by
  refine ((Covers.refl _).congr fun v => ?_).fold_eq hfunctional
  simp only [mem_versionsIn, horder.mem_iff]

theorem maxSequence_of_covers {replacement : Segment} {mutations : List WalMutation}
    (hbuilt : ∀ segment ∈ compacted, segment.Built)
    (hcovers : Covers (compacted.flatMap Segment.versions) replacement.versions)
    (hsummary : replacement.Summarizes mutations) :
    (∀ segment ∈ compacted, segment.maxSequence ≤ replacement.maxSequence) ∧
      ∃ segment ∈ compacted, segment.maxSequence = replacement.maxSequence := by
  have hle : ∀ segment ∈ compacted, segment.maxSequence ≤ replacement.maxSequence := by
    intro segment hsegment
    obtain ⟨source, hsource⟩ := (hbuilt segment hsegment).summarizes
    obtain ⟨v, hv, hsequence⟩ := hsource.exists_maxSequence
    have hmem : v ∈ compacted.flatMap Segment.versions := List.mem_flatMap.mpr ⟨segment, hsegment, hv⟩
    -- The newest version of a segment may be gone, but then a newer one of its record is there.
    rcases fold_cases (compacted.flatMap Segment.versions) v.key with
      ⟨-, hunknown⟩ | ⟨w, -, hkey, hlatest⟩
    · exact absurd rfl (hunknown v hmem)
    · rw [← hsequence]
      exact (hlatest.2 v hmem hkey.symm).trans (hsummary.le_maxSequence (hcovers.2 w hlatest))
  refine ⟨hle, ?_⟩
  obtain ⟨v, hv, hsequence⟩ := hsummary.exists_maxSequence
  obtain ⟨segment, hsegment, hversion⟩ := List.mem_flatMap.mp (hcovers.1 v hv)
  obtain ⟨source, hsource⟩ := (hbuilt segment hsegment).summarizes
  refine ⟨segment, hsegment, le_antisymm (hle segment hsegment) ?_⟩
  rw [← hsequence]
  exact hsource.le_maxSequence hversion

/-- Segments of one collection can always be compacted. Beside any other
segments the replacement stands for them, in any order, and it ends at the
last sequence number that one of them ends at. -/
theorem compactSegments_meaning (replacementId : SegmentId) (hlen : 2 ≤ compacted.length)
    (hbuilt : ∀ segment ∈ compacted, segment.Built)
    (hcollection : ∀ segment ∈ others ++ compacted, segment.collectionId = collectionId)
    (hdistinct : Distinct ((others ++ compacted).flatMap Segment.versions)) :
    ∃ replacement, compactSegments replacementId compacted = .ok replacement ∧
      replacement.id = replacementId ∧ replacement.collectionId = collectionId ∧
      (∀ before after : List Segment, before.Perm (others ++ compacted) →
        after.Perm (others ++ [replacement]) →
        fold (versionsIn after collectionId) = fold (versionsIn before collectionId) ∧
          foldVisibleRecords after collectionId = foldVisibleRecords before collectionId) ∧
      (∀ segment ∈ compacted, segment.maxSequence ≤ replacement.maxSequence) ∧
      ∃ segment ∈ compacted, segment.maxSequence = replacement.maxSequence := by
  have hdistinct' : Distinct (compacted.flatMap Segment.versions) := by
    intro v hv w hw
    rw [List.flatMap_append] at hdistinct
    exact hdistinct v (List.mem_append_right _ hv) w (List.mem_append_right _ hw)
  have hnonempty : compacted.flatMap Segment.versions ≠ [] := by
    obtain ⟨first, hfirst⟩ := List.exists_mem_of_length_pos (by omega : 0 < compacted.length)
    obtain ⟨source, hsource⟩ := (hbuilt first hfirst).summarizes
    obtain ⟨v, hv, -⟩ := hsource.exists_maxSequence
    exact List.ne_nil_of_mem (List.mem_flatMap.mpr ⟨first, hfirst, hv⟩)
  obtain ⟨replacement, hreplacement, hid, hrcollection, hcovers, -⟩ :=
    compactSegments_exists replacementId hlen
      (fun segment hsegment => hcollection segment (List.mem_append_right _ hsegment))
      hdistinct' hnonempty
  obtain ⟨-, mutations, hsummary⟩ := compactSegments_summarizes hreplacement
  refine ⟨replacement, hreplacement, hid, hrcollection, fun before after hbefore hafter => ?_,
    maxSequence_of_covers hbuilt hcovers hsummary⟩
  have hall : ∀ segment ∈ others ++ [replacement], segment.collectionId = collectionId := by
    intro segment hsegment
    rcases List.mem_append.mp hsegment with hother | hsingle
    · exact hcollection segment (List.mem_append_left _ hother)
    · rwa [List.mem_singleton.mp hsingle]
  have hold : versionsIn (others ++ compacted) collectionId =
      others.flatMap Segment.versions ++ compacted.flatMap Segment.versions := by
    rw [versionsIn_of_collection hcollection, List.flatMap_append]
  have hnew : versionsIn (others ++ [replacement]) collectionId =
      others.flatMap Segment.versions ++ replacement.versions := by
    rw [versionsIn_of_collection hall, List.flatMap_append, List.flatMap_singleton]
  have hfunctional : Functional (versionsIn (others ++ compacted) collectionId) := by
    rw [versionsIn_of_collection hcollection]
    exact hdistinct.functional
  have hboth : Covers (versionsIn (others ++ compacted) collectionId)
      (versionsIn (others ++ [replacement]) collectionId) := by
    rw [hold, hnew]
    exact (Covers.refl _).append hcovers
  have hfold : fold (versionsIn after collectionId) = fold (versionsIn before collectionId) := by
    calc fold (versionsIn after collectionId)
        = fold (versionsIn (others ++ [replacement]) collectionId) :=
          fold_versionsIn_perm (hfunctional.subset hboth.1) hafter
      _ = fold (versionsIn (others ++ compacted) collectionId) := hboth.fold_eq hfunctional
      _ = fold (versionsIn before collectionId) := (fold_versionsIn_perm hfunctional hbefore).symm
  refine ⟨hfold, ?_⟩
  rw [foldVisibleRecords, foldVisibleRecords, hfold]

end Meaning

/-! ### Three segments -/

namespace Compaction

def sampleCollection : CollectionId := ⟨"a", CollectionId.validate_a⟩

def sampleRecord (id : UInt64) (sequenceNumber : SequenceNumber) : Record :=
  ⟨.unsigned id, ⟨[], Vector.finite_nil⟩, Metadata.empty, sequenceNumber⟩

def sampleWrite : Segment := ⟨1, sampleCollection, 1, 1, [sampleRecord 7 1], []⟩

def sampleDelete : Segment := ⟨2, sampleCollection, 2, 2, [], [⟨.unsigned 7, 2⟩]⟩

def sampleOther : Segment := ⟨3, sampleCollection, 3, 3, [sampleRecord 8 3], []⟩

/-- The replacement of the last two segments still hides what the first one wrote. -/
theorem compactSegments_meaning_sample : ∃ replacement,
    compactSegments 4 [sampleDelete, sampleOther] = .ok replacement ∧
      foldVisibleRecords [sampleWrite, replacement] sampleCollection =
        foldVisibleRecords [sampleWrite, sampleDelete, sampleOther] sampleCollection := by
  have hbuilt : ∀ segment ∈ [sampleDelete, sampleOther], segment.Built := by
    intro segment hsegment
    rcases List.mem_pair.mp hsegment with rfl | rfl
    · exact ⟨[.delete sampleCollection (.unsigned 7) 2], rfl⟩
    · exact ⟨[.upsert sampleCollection (sampleRecord 8 3)], rfl⟩
  have hcollection : ∀ segment ∈ [sampleWrite] ++ [sampleDelete, sampleOther],
      segment.collectionId = sampleCollection := by
    simp [sampleWrite, sampleDelete, sampleOther]
  have hdistinct : Distinct (([sampleWrite] ++ [sampleDelete, sampleOther]).flatMap
      Segment.versions) := by
    simp [Distinct, sampleWrite, sampleDelete, sampleOther, Segment.versions, Record.version,
      Tombstone.version, sampleRecord]
  obtain ⟨replacement, hreplacement, -, -, hmeaning, -⟩ :=
    compactSegments_meaning 4 (le_refl 2) hbuilt hcollection hdistinct
  exact ⟨replacement, hreplacement, (hmeaning _ _ (List.Perm.refl _) (List.Perm.refl _)).2⟩

end Compaction

end Ketebe
