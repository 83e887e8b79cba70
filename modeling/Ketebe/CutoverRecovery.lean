import Ketebe.CollectionRecovery
import Ketebe.DocumentReplacement
import Ketebe.EmbeddingMigration
import Ketebe.ReadPaths

/-!
What a cutover leaves of a collection. The store keeps its history while the vectors of the target
profile are published and the configuration is replaced, and the records tell which of the two has
happened.
-/
namespace Ketebe

open Lib.ByteCodec Lib.Durable Lib.Durable.Program Lib.LatestVersion

open Segment (writes)

/-! ### The store -/

namespace StoreStep

section Reconfigured

variable {F : Type} {state : AppState F} {store : Store F} {history : List WalMutation}
  {updated : CollectionConfig}

theorem Sound.cutOver {replay : Wal.ReplayResult} (h : Sound state store replay)
    (halike : updated.Alike store.dir.config) : Sound state (cutOver updated store) replay := by
  refine ⟨⟨halike.id.trans h.numbered.config, h.numbered.files, fun runtime hruntime => ?_⟩,
    h.distinct, fun segment hsegment => ⟨(h.valid segment hsegment).bounded,
      fun record hrecord => ?_⟩, h.checkpoint, h.replays,
    ⟨fun mutation hmutation => ⟨(h.log.accepted mutation hmutation).collection, ?_⟩, h.log.later⟩,
    fun runtime hruntime => ?_⟩
  · obtain ⟨before, hbefore, rfl⟩ := Option.map_eq_some_iff.mp hruntime
    obtain ⟨hsegments, hmutable⟩ := h.numbered.runtime before hbefore
    exact ⟨hsegments, hmutable⟩
  · have hvalid := (h.valid segment hsegment).records record hrecord
    have hdimension : (Ketebe.cutOver updated store).dir.config.dimension =
        store.dir.config.dimension := halike.dimension
    rw [CollectionConfig.validateRecord, CollectionConfig.validateVector] at hvalid ⊢
    rw [hdimension]
    exact hvalid
  · exact (halike.checkMutation mutation).trans (h.log.accepted mutation hmutation).valid
  · obtain ⟨before, hbefore, rfl⟩ := Option.map_eq_some_iff.mp hruntime
    obtain ⟨-, hsegments, hnamed, hbounded, hmutable, hlatest⟩ := h.runtime before hbefore
    exact ⟨rfl, hsegments, hnamed, hbounded, hmutable, hlatest⟩

/-- The history stays when a configuration with the same checks replaces the old one. -/
theorem Kept.cutOver (h : Kept state store history) (halike : updated.Alike store.dir.config) :
    Kept state (cutOver updated store) history := by
  obtain ⟨replay, hsound⟩ := h.sound
  obtain ⟨entries, hexact⟩ := h.exact
  refine ⟨h.counted, ⟨replay, hsound.cutOver halike⟩, ⟨entries, hexact.replays,
    fun runtime writer hruntime hwriter => ?_⟩, h.files, h.checkpoint, h.log,
    fun runtime hruntime => ?_⟩
  · obtain ⟨before, hbefore, rfl⟩ := Option.map_eq_some_iff.mp hruntime
    exact hexact.writer before writer hbefore hwriter
  · obtain ⟨before, hbefore, rfl⟩ := Option.map_eq_some_iff.mp hruntime
    obtain ⟨hnext, hmutable, hcovers, hended⟩ := h.runtime before hbefore
    exact ⟨hnext, hmutable, hcovers, hended⟩

end Reconfigured

/-! ### Publishing the vectors -/

section Publish

open WriteService

variable {F : Type} [DecidableEq F] {S : Type} [ScoreArith S] {state : AppState F}
  {store : Store F}

theorem Step.config {next : Store F} {logged : List WalMutation}
    (h : Step S state store logged next) : next.dir.config = store.dir.config := by
  cases h <;> rfl

theorem Steps.config {next : Store F} {logged : List WalMutation}
    (h : Steps S state store logged next) : next.dir.config = store.dir.config := by
  induction h with
  | refl => rfl
  | tail _ hstep ih => exact hstep.config.trans ih

end Publish

end StoreStep

/-! ### Presented tables -/

section Presents

variable {F : Type} {state : AppState F} {config updated : CollectionConfig} {table : RecordTable}
  {store : Store F} {room : ℕ}

/-- The collection has this configuration and shows this table, now or after recovery, and has
numbers left for so many mutations. -/
structure Store.Presents (state : AppState F) (config : CollectionConfig) (table : RecordTable)
    (room : ℕ) (store : Store F) : Prop where
  history : ∃ history, StoreStep.Kept state store history ∧ replay (writes history) = table ∧
    history.length + room < maxSequence
  config : store.dir.config = config

/-- What readers of a running collection get. -/
structure Store.Answers (state : AppState F) (config : CollectionConfig) (table : RecordTable)
    (store : Store F) : Prop where
  stored : store.dir.config = config
  running : ∃ runtime segments, store.runtime = some runtime ∧ runtime.config = some config ∧
    runtime.querySegments = .ok segments ∧ foldVisibleRecords segments state.collectionId = table

theorem id_of_replay {history : List WalMutation} {id : RecordId} {record : Record}
    (h : (replay (writes history))[id]? = some record) : record.id = id := by
  induction history using List.reverseRecOn with
  | nil => cases h
  | append_singleton history last ih =>
    rw [writes_append] at h
    change (replay (writes history ++ [last.version]))[id]? = some record at h
    rw [replay_append_singleton, getElem?_applyWrite] at h
    split at h
    · rename_i hkey
      cases last with
      | upsert _ written =>
        cases h
        exact hkey
      | delete _ _ _ => cases h
    · exact ih h

namespace Store.Presents

theorem mono {less : ℕ} (h : store.Presents state config table room) (hless : less ≤ room) :
    store.Presents state config table less := by
  obtain ⟨⟨history, hkept, htable, hroom⟩, hconfig⟩ := h
  exact ⟨⟨history, hkept, htable, by omega⟩, hconfig⟩

theorem down (h : store.Presents state config table room) :
    store.down.Presents state config table room := by
  obtain ⟨⟨history, hkept, htable, hroom⟩, hconfig⟩ := h
  exact ⟨⟨history, hkept.down, htable, hroom⟩, hconfig⟩

theorem cutOver (h : store.Presents state config table room) (halike : updated.Alike config) :
    (Ketebe.cutOver updated store).Presents state updated table room := by
  obtain ⟨⟨history, hkept, htable, hroom⟩, rfl⟩ := h
  exact ⟨⟨history, hkept.cutOver halike, htable, hroom⟩, rfl⟩

theorem id_eq (h : store.Presents state config table room) {id : RecordId} {record : Record}
    (hrecord : table[id]? = some record) : record.id = id := by
  obtain ⟨⟨history, -, rfl, -⟩, -⟩ := h
  exact id_of_replay hrecord

theorem config_id (h : store.Presents state config table room) : config.id = state.collectionId := by
  obtain ⟨⟨history, hkept, -, -⟩, rfl⟩ := h
  obtain ⟨replay, hsound⟩ := hkept.sound
  exact hsound.numbered.config

theorem answers (h : store.Presents state config table room) {runtime : CollectionRuntime}
    (hrunning : store.runtime = some runtime) : store.Answers state config table := by
  obtain ⟨⟨history, hkept, htable, -⟩, hconfig⟩ := h
  obtain ⟨replay, hsound⟩ := hkept.sound
  obtain ⟨segments, hquery, hvisible⟩ := (hkept.serves hrunning).visible
  refine ⟨hconfig, runtime, segments, hrunning, ?_, hquery, hvisible.trans htable⟩
  rw [← hconfig]
  exact (hsound.runtime runtime hrunning).config

variable [DecidableEq F] {S : Type} [ScoreArith S]

/-- When nothing fails, the server recovers the collection as it is on disk. -/
theorem recovers (h : store.Presents state config table room) (hscope : state.Scoped) :
    ∃ after, (AppState.recover S state).Returns store.down () after ∧
      after.Presents state config table room ∧ after.Answers state config table := by
  obtain ⟨⟨history, hkept, htable, hroom⟩, hconfig⟩ := h
  obtain ⟨replay, hsound⟩ := hkept.down.sound
  obtain ⟨after, hreturns⟩ : ∃ after, (AppState.recover S state).Returns store.down () after :=
    StoreStep.returns_recover hsound hscope
  have hrecover : (AppState.recover S state).Ensures (StoreStep.progress S state store.down (· = [])
      fun _ next => StoreStep.Reached S state store.down (· = []) next ∧
        ∃ runtime, next.runtime = some runtime) store.down :=
    StoreStep.ensures_recover ⟨[], rfl, .refl _⟩
  have hholds := hrecover []
  rw [hreturns] at hholds
  obtain ⟨⟨added, rfl, hsteps⟩, runtime, hruntime⟩ := hholds
  have hafter := hkept.down.steps hsteps (by
    rw [List.append_nil]
    omega)
  rw [List.append_nil] at hafter
  have hpresents : after.Presents state config table room :=
    ⟨⟨history, hafter, htable, hroom⟩, hsteps.config.trans hconfig⟩
  exact ⟨after, hreturns, hpresents, hpresents.answers hruntime⟩

end Store.Presents

end Presents

/-! ### Published records -/

section Published

open StoreStep

variable {F : Type} {state : AppState F} {config : CollectionConfig} {table : RecordTable}
  {store : Store F} {pending : List PendingRecord}

/-- The records are stored, and all others are what they were. -/
structure Published (pending : List PendingRecord) (before after : RecordTable) : Prop where
  written : ∀ record ∈ pending, ∃ stored, after[record.id]? = some stored ∧
    stored.vector.values = record.vector ∧ stored.metadata = record.metadata
  others : ∀ id, id ∉ pending.map PendingRecord.id → after[id]? = before[id]?

theorem getElem?_replay_writes {first second : List WalMutation} (h : Counted (first ++ second))
    (key : RecordId) : (replay (writes (first ++ second)))[key]? =
      ((fold (writes second))[key]?.or (fold (writes first))[key]?).bind Prod.snd := by
  have hordered := ordered_writes h
  rw [writes_append] at hordered
  rw [writes_append, replay_eq_fold hordered, Std.ExtTreeMap.getElem?_filterMap',
    fold_append_of_lt (List.pairwise_append.mp hordered).2.2]

theorem published_numbered {history : List WalMutation} {next : SequenceNumber}
    {batch : List PendingMutation} (h : Counted (history ++ (numberFrom next batch).1))
    (hprepared : WriteService.prepareBatch state config pending = .ok batch)
    (hnodup : (pending.map PendingRecord.id).Nodup) :
    Published pending (replay (writes history))
      (replay (writes (history ++ (numberFrom next batch).1))) := by
  obtain ⟨hupserts, hwritten⟩ := prepared_upsert hprepared
  refine ⟨fun record hrecord => ?_, fun id hid => ?_⟩
  · rw [getElem?_replay_writes h]
    obtain ⟨mutation, hmutation, hid⟩ := hwritten record hrecord
    rcases fold_numberFrom next batch record.id with ⟨hother, -⟩ | ⟨winner, hwinner, hkey, number, hfold⟩
    · exact absurd hid (hother mutation hmutation)
    · obtain ⟨same, hsame, vector, hvector, rfl⟩ := hupserts winner hwinner
      cases List.inj_on_of_nodup_map hnodup hsame hrecord hkey
      rw [hfold]
      exact ⟨⟨record.id, vector, record.metadata, number⟩, rfl, hvector, rfl⟩
  · rw [getElem?_replay_writes h, replay_eq_fold (ordered_writes h.of_append),
      Std.ExtTreeMap.getElem?_filterMap']
    rcases fold_numberFrom next batch id with ⟨-, hfold⟩ | ⟨winner, hwinner, hkey, -, -⟩
    · rw [hfold]
      rfl
    · obtain ⟨record, hrecord, vector, -, rfl⟩ := hupserts winner hwinner
      have hsame : record.id = id := hkey
      rw [← hsame] at hid
      exact absurd (List.mem_map_of_mem hrecord) hid

theorem length_numberFrom (next : SequenceNumber) (batch : List PendingMutation) :
    (numberFrom next batch).1.length = batch.length := by
  induction batch generalizing next with
  | nil => rfl
  | cons head rest ih => exact congrArg (· + 1) (ih _)

theorem numberedUpsert_cases (state : AppState F) (store : Store F) (pending : List PendingRecord) :
    numberedUpsert state store pending = [] ∨ ∃ config batch next,
      WriteService.prepareBatch state config pending = .ok batch ∧
        numberedUpsert state store pending = (numberFrom next batch).1 := by
  unfold numberedUpsert
  cases store.runtime with
  | none => exact .inl rfl
  | some runtime =>
    dsimp only
    cases hbatch : WriteService.upsertMutations state runtime pending with
    | error error => exact .inl rfl
    | ok batch =>
      unfold WriteService.upsertMutations at hbatch
      cases hconfig : runtime.config with
      | none =>
        rw [hconfig] at hbatch
        cases hbatch
      | some config =>
        rw [hconfig] at hbatch
        exact .inr ⟨config, batch, runtime.nextSequence, hbatch, rfl⟩

variable [DecidableEq F] {S : Type} [ScoreArith S] {registry : EmbeddingProviderRegistry}
  {expectedActiveProfile targetProfile : String}

/-- What the steps of a publication leave shows the old table or the published one. -/
theorem Store.Presents.published {next : Store F} {logged : List WalMutation}
    (h : store.Presents state config table pending.length)
    (hnodup : (pending.map PendingRecord.id).Nodup)
    (hlogged : Offered (numberedUpsert state store pending) logged)
    (hsteps : Steps S state store logged next) :
    ∃ after, next.Presents state config after 0 ∧
      (logged = [] ∧ after = table ∨ pending ≠ [] ∧ Published pending table after) := by
  obtain ⟨⟨history, hkept, rfl, hroom⟩, hconfig⟩ := h
  have hsame := hsteps.config.trans hconfig
  by_cases hnone : logged = []
  · subst hnone
    have hafter := hkept.steps hsteps (by
      rw [List.append_nil]
      omega)
    rw [List.append_nil] at hafter
    exact ⟨_, ⟨⟨history, hafter, rfl, by omega⟩, hsame⟩, .inl ⟨rfl, rfl⟩⟩
  · obtain rfl := hlogged.resolve_left hnone
    rcases numberedUpsert_cases state store pending with hempty | ⟨_, batch, first, hbatch, hnumbers⟩
    · exact absurd hempty hnone
    · rw [hnumbers] at hsteps ⊢
      have hlength : (history ++ (numberFrom first batch).1).length < maxSequence := by
        rw [List.length_append, length_numberFrom, ← (except_mapM_ok.mp hbatch).length_eq]
        exact hroom
      have hafter := hkept.steps hsteps hlength
      refine ⟨_, ⟨⟨_, hafter, rfl, hlength⟩, hsame⟩, .inr ⟨fun hempty => hnone ?_,
        published_numbered hafter.counted hbatch hnodup⟩⟩
      rw [hempty] at hbatch
      cases hbatch
      exact hnumbers

end Published

/-! ### The configuration -/

section Finalize

open WriteService

variable {F : Type} {state : AppState F} {config updated : CollectionConfig} {table : RecordTable}
  {store : Store F} {room : ℕ} {registry : EmbeddingProviderRegistry}
  {expectedActiveProfile targetProfile : String} {ingestion : CollectionIngestionConfig}
  {provider : EmbeddingProvider}

/-- The configuration of the cutover makes the checks of the old one. -/
theorem alike_of_cutoverConfig (hid : config.id = state.collectionId)
    (h : cutoverConfig state targetProfile config ingestion = .ok updated) :
    updated.Alike config := by
  obtain ⟨moved, -, h⟩ := except_bind_ok.mp h
  obtain ⟨fresh, hfresh, h⟩ := except_bind_ok.mp h
  cases h
  have hnew := mapError_ok_iff.mp hfresh
  unfold CollectionConfig.new at hnew
  split at hnew
  · cases hnew
    exact (CollectionConfig.alike_withIngestion.trans
      (CollectionConfig.alike_withSchema _ _ _)).trans ⟨hid.symm, rfl⟩
  · cases hnew

end Finalize

end Ketebe
