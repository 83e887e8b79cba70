import Ketebe.CutoverRecovery

/-!
The records of a migration. What an activation writes for a staged record keeps its source text
and names the target profile, so that the records themselves show how far the activation came.
-/
namespace Ketebe

open Lib.ByteCodec

/-! ### Metadata -/

section Metadata

variable {metadata : Metadata} {profile text : String} {provider : Embedding.EmbeddingProvider}
  {dimension : ℕ}

theorem textIn_insert_of_ne {key other field : String} {value : OrderedValue} (h : other ≠ key) :
    textIn (metadata.insert key value) other field = textIn metadata other field := by
  rw [textIn, textIn, getObject_insert_of_ne metadata value h]

theorem embeddingProfile_set :
    embeddingProfile (setEmbeddingProvenance metadata profile provider dimension text) =
      some profile := by
  simp [embeddingProfile, setEmbeddingProvenance, textIn, getObject_insert, Metadata.get_insert,
    textValue]

/-- A record keeps its source text when its vector is replaced. -/
theorem sourceText_set (h : sourceText metadata = some text) :
    sourceText (setEmbeddingProvenance metadata profile provider dimension text) = some text := by
  have hchunk : textIn (setEmbeddingProvenance metadata profile provider dimension text)
      chunkMetadataKey "text" = textIn metadata chunkMetadataKey "text" :=
    textIn_insert_of_ne (by decide)
  have hsource : textIn (setEmbeddingProvenance metadata profile provider dimension text)
      embeddingMetadataKey "source_text" = some text := by
    simp [setEmbeddingProvenance, textIn, getObject_insert, Metadata.get_insert, textValue]
  unfold sourceText at h ⊢
  rw [hchunk, hsource]
  cases hfound : textIn metadata chunkMetadataKey "text" with
  | none => rfl
  | some found =>
    rw [hfound] at h
    exact h

end Metadata

/-! ### Vectors -/

section Managed

variable {table : RecordTable} {record : Record}

/-- Records stand under their ids. -/
def Keyed (table : RecordTable) : Prop :=
  ∀ (id : RecordId) (record : Record), table[id]? = some record → record.id = id

theorem mem_managedRecords (h : Keyed table) : record ∈ managedRecords table ↔
    table[record.id]? = some record ∧ (record.metadata.get embeddingMetadataKey).isSome := by
  rw [managedRecords, List.mem_filter, List.mem_map]
  refine and_congr_left fun _ => ⟨?_, fun hrecord => ⟨(record.id, record), ?_, rfl⟩⟩
  · rintro ⟨⟨id, found⟩, hentry, rfl⟩
    have hfound := Std.ExtTreeMap.mem_toList_iff_getElem?_eq_some.mp hentry
    rw [h id found hfound]
    exact hfound
  · exact Std.ExtTreeMap.mem_toList_iff_getElem?_eq_some.mpr hrecord

/-- The record of an id is the only one that a search for it can find. -/
theorem find?_managedRecords (h : Keyed table) {id : RecordId} {p : Record → Bool}
    (hp : ∀ record, p record ↔ record.id = id) : (managedRecords table).find? p = some record ↔
      record ∈ managedRecords table ∧ record.id = id := by
  constructor
  · intro hfind
    exact ⟨List.mem_of_find?_eq_some hfind, (hp record).mp (List.find?_some hfind)⟩
  · rintro ⟨hmem, hid⟩
    cases hfind : (managedRecords table).find? p with
    | none => exact absurd ((hp record).mpr hid) (List.find?_eq_none.mp hfind record hmem)
    | some found =>
      have hfound := (hp found).mp (List.find?_some hfind)
      have hother := ((mem_managedRecords h).mp (List.mem_of_find?_eq_some hfind)).1
      rw [hfound, ← hid, ((mem_managedRecords h).mp hmem).1] at hother
      exact hother.symm

end Managed

/-! ### Matches -/

section Matches

open EmbeddingMigrationService

variable {table : RecordTable} {migration : EmbeddingMigrationState} {staged : StagedRecord}

end Matches

/-! ### Plans -/

section Plans

open EmbeddingMigrationService

variable {table latest after : RecordTable} {migration : EmbeddingMigrationState}
  {provider : Embedding.EmbeddingProvider} {records : List StagedRecord}
  {pending : List PendingRecord}

theorem PersistedRecordId.ofDomain_intoDomain {staged : PersistedRecordId} {id : RecordId}
    (h : staged.intoDomain = .ok id) : ofDomain id = staged := by
  cases staged with
  | string value =>
    unfold intoDomain at h
    have hid := mapError_ok_iff.mp h
    unfold RecordId.ofString at hid
    split at hid
    · cases hid
    · cases hid
      rfl
  | u64 value =>
    cases h
    rfl

theorem pendingRecord_ok {staged : StagedRecord} {record : PendingRecord} (hkeyed : Keyed table)
    (h : pendingRecord migration provider (managedRecords table) staged = .ok record) :
    PersistedRecordId.ofDomain record.id = staged.id ∧ record.vector = staged.vector ∧
      ∃ current ∈ managedRecords table, current.id = record.id ∧
        embeddingProfile record.metadata = some migration.targetProfile ∧
          sourceText record.metadata = sourceText current.metadata := by
  obtain ⟨id, hid, h⟩ := except_bind_ok.mp h
  split at h
  · cases h
  rename_i current hcurrent
  obtain ⟨hmem, hsame⟩ := (find?_managedRecords hkeyed fun _ => decide_eq_true_iff).mp hcurrent
  split at h
  · cases h
  split at h
  · cases h
  rename_i text htext
  cases h
  exact ⟨PersistedRecordId.ofDomain_intoDomain hid, rfl, current, hmem, hsame, embeddingProfile_set,
    (sourceText_set htext).trans htext.symm⟩

/-- What an activation has read and wants to write. -/
structure Planned (migration : EmbeddingMigrationState) (provider : Embedding.EmbeddingProvider)
    (table : RecordTable) (records : List StagedRecord) (pending : List PendingRecord) : Prop where
  keyed : Keyed table
  pending : records.mapM (pendingRecord migration provider (managedRecords table)) = .ok pending
  nodup : (records.map StagedRecord.id).Nodup
  length : records.length = (managedRecords table).length

/-- The planned records have their staged vectors under the target profile, with the source text
that they had when they were planned. All other records are the latest ones. -/
structure Overlaid (targetProfile : String) (records : List StagedRecord)
    (planned latest after : RecordTable) : Prop where
  moved : ∀ record ∈ managedRecords planned, ∃ staged ∈ records, ∃ next,
    staged.id = PersistedRecordId.ofDomain record.id ∧ after[record.id]? = some next ∧
      embeddingProfile next.metadata = some targetProfile ∧
        sourceText next.metadata = sourceText record.metadata ∧
          eqVectors next.vector.values staged.vector
  others : ∀ id, id ∉ (managedRecords planned).map Record.id → after[id]? = latest[id]?

/-- The managed records are moved to the target profile and nothing else changes. -/
abbrev Migrated (targetProfile : String) (records : List StagedRecord)
    (before after : RecordTable) : Prop :=
  Overlaid targetProfile records before before after

namespace Planned

theorem ids (h : Planned migration provider table records pending) :
    (pending.map PendingRecord.id).map PersistedRecordId.ofDomain =
      records.map StagedRecord.id := by
  have hsame : List.Forall₂ (fun record staged => PersistedRecordId.ofDomain record = staged)
      (pending.map PendingRecord.id) (records.map StagedRecord.id) := by
    rw [List.forall₂_map_left_iff, List.forall₂_map_right_iff]
    exact (except_mapM_ok.mp h.pending).flip.imp fun _ _ hpending =>
      (pendingRecord_ok h.keyed hpending).1
  rw [← List.forall₂_eq_eq_eq, List.forall₂_map_left_iff]
  exact hsame

theorem nodup_pending (h : Planned migration provider table records pending) :
    (pending.map PendingRecord.id).Nodup := by
  have hnodup := h.nodup
  rw [← h.ids] at hnodup
  exact hnodup.of_map _

/-- Every managed record is written, since there are as many writes as records. -/
theorem complete (h : Planned migration provider table records pending) :
    (pending.map PendingRecord.id).Perm ((managedRecords table).map Record.id) := by
  have hsubset : pending.map PendingRecord.id ⊆ (managedRecords table).map Record.id := by
    intro id hid
    obtain ⟨record, hrecord, rfl⟩ := List.mem_map.mp hid
    obtain ⟨staged, -, hpending⟩ := (mem_of_except_mapM h.pending).1 record hrecord
    obtain ⟨-, -, current, hcurrent, hsame, -⟩ := pendingRecord_ok h.keyed hpending
    exact List.mem_map.mpr ⟨current, hcurrent, hsame⟩
  refine (h.nodup_pending.subperm hsubset).perm_of_length_le ?_
  rw [List.length_map, List.length_map, ← h.length, (except_mapM_ok.mp h.pending).length_eq]

end Planned

end Plans

end Ketebe
