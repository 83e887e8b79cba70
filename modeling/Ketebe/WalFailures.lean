import Ketebe.Lib.Runs
import Ketebe.WalRecovery

/-!
Failed appends. The caller numbers its mutations from the next sequence
number and moves it on only when the append succeeded, while a failed append
leaves its bytes in the file. As long as nothing is written behind such bytes,
replay returns every acknowledged mutation.
-/
namespace Ketebe

open Lib.ByteCodec Lib.Runs

/-- A mutation that has not been numbered yet. -/
inductive PendingMutation where
  | upsert (collectionId : CollectionId) (id : RecordId) (vector : Vector) (metadata : Metadata)
  | delete (collectionId : CollectionId) (recordId : RecordId)

def PendingMutation.numbered (sequence : SequenceNumber) : PendingMutation → WalMutation
  | .upsert collectionId id vector metadata => .upsert collectionId ⟨id, vector, metadata, sequence⟩
  | .delete collectionId recordId => .delete collectionId recordId sequence

/-- The numbering loop of `upsert_batch`. -/
def numberFrom (next : SequenceNumber) : List PendingMutation → List WalMutation × SequenceNumber
  | [] => ([], next)
  | pending :: rest =>
      let (mutations, last) := numberFrom next.saturatingSucc rest
      (pending.numbered next :: mutations, last)

/-- An open log and the caller that appends to it. -/
structure LogSession where
  wal : Wal
  nextSequence : SequenceNumber
  acknowledged : List WalMutation

namespace LogSession

inductive Call where
  /-- Numbers the mutations from the next sequence number and appends them. -/
  | append (batch : List PendingMutation) (outcome : AppendOutcome)
  /-- Offers mutations with numbers of their own. -/
  | stale (mutations : List WalMutation) (outcome : AppendOutcome)

/-- The mutations that a call hands to `append_batch`. -/
def mutations (session : LogSession) : Call → List WalMutation
  | .append batch _ => (numberFrom session.nextSequence batch).1
  | .stale mutations _ => mutations

def step (session : LogSession) : Call → LogSession
  | .append batch outcome =>
      let (mutations, next) := numberFrom session.nextSequence batch
      match session.wal.appendBatch mutations outcome with
      | (wal, .ok ()) => ⟨wal, next, session.acknowledged ++ mutations⟩
      | (wal, .error _) => { session with wal := wal }
  | .stale mutations outcome =>
      { session with wal := (session.wal.appendBatch mutations outcome).1 }

/-- Stale mutations are those that the sequence check rejects. -/
def Legal (session : LogSession) : Call → Prop
  | .append _ _ => True
  | .stale mutations outcome => ∃ previous current,
      (session.wal.appendBatch mutations outcome).2 = .error (.sequenceRegression previous current)

/-- The file is the frames of the acknowledged mutations and nothing else. -/
def Clean (session : LogSession) : Prop :=
  Wal.encodeFrames session.acknowledged = .ok session.wal.file

/-- The call puts no byte into the file: it offers nothing, its batch is
rejected before the write, or the write fails at once. -/
def WritesNothing (session : LogSession) (call : Call) : Prop :=
  session.mutations call = [] ∨
    (∃ error, Wal.encodeBatch session.wal.lastSequence (session.mutations call) = .error error) ∨
      ∃ batch, call = .append batch (.writeFails 0)

/-- Nothing is written behind the bytes of a failed append. -/
def Undisturbed (session : LogSession) (call : Call) : Prop :=
  session.Legal call ∧ (session.Clean ∨ session.WritesNothing call)

/-- Replay succeeds and returns every acknowledged mutation in order. -/
def ReplaysAcknowledged (session : LogSession) : Prop :=
  ∃ result, session.wal.replay = .ok result ∧
    session.acknowledged.Sublist result.entries

/-- The acknowledged frames, followed by a prefix of the frames of a batch
that could have been appended. -/
structure Intact (session : LogSession) : Prop where
  increasing : Wal.Increasing none session.acknowledged
  last : session.wal.lastSequence = Wal.lastSequenceOf none session.acknowledged
  file : ∃ whole residue batch encoded, Wal.encodeFrames session.acknowledged = .ok whole ∧
    session.wal.file = whole ++ residue ∧ Wal.encodeFrames batch = .ok encoded ∧
      Wal.Increasing session.wal.lastSequence batch ∧ residue <+: encoded

theorem intact_of_holds {session : LogSession}
    (h : session.wal.Holds session.acknowledged) : session.Intact :=
  ⟨h.increasing, h.last, session.wal.file, [], [], [], h.frames, (List.append_nil _).symm, rfl,
    trivial, List.nil_prefix⟩

theorem Intact.holds {session : LogSession} (h : session.Intact) (hclean : session.Clean) :
    session.wal.Holds session.acknowledged :=
  ⟨hclean, h.increasing, h.last⟩

/-- A failed append to a clean file leaves it intact. -/
theorem Intact.writeFile {session : LogSession} (h : session.Intact) (hclean : session.Clean)
    {batch : List WalMutation} {encoded written : Bytes}
    (hincreasing : Wal.Increasing session.wal.lastSequence batch)
    (hencoded : Wal.encodeFrames batch = .ok encoded) (hwritten : written <+: encoded) :
    Intact { session with wal := session.wal.writeFile written } :=
  ⟨h.increasing, h.last, session.wal.file, written, batch, encoded, hclean, rfl, hencoded,
    hincreasing, hwritten⟩

/-- Mutations that can be encoded in sequence order are not rejected. -/
theorem encodeBatch_ne_error {previous : Option SequenceNumber} {batch : List WalMutation}
    {encoded : Bytes} {error : WalError} (hincreasing : Wal.Increasing previous batch)
    (hencoded : Wal.encodeFrames batch = .ok encoded) :
    Wal.encodeBatch previous batch ≠ .error error := by
  rw [Wal.encodeBatch_ok_iff.mpr ⟨hincreasing, hencoded, rfl⟩]
  nofun

theorem append_preserves {session : LogSession} {batch : List PendingMutation}
    {outcome : AppendOutcome} (h : session.Intact)
    (hallowed : session.Undisturbed (.append batch outcome)) :
    (session.step (.append batch outcome)).Intact := by
  obtain ⟨-, hallowed⟩ := hallowed
  simp only [WritesNothing, LogSession.mutations] at hallowed
  simp only [step]
  rcases hnumbered : numberFrom session.nextSequence batch with ⟨mutations, next⟩
  simp only [hnumbered] at hallowed
  rcases Wal.appendBatch_cases session.wal mutations outcome with
    ⟨hincreasing, encoded, hencoded, hzero, happend⟩ | ⟨error, -, happend⟩ |
    ⟨hincreasing, encoded, written, hencoded, hwritten, hzero, hnonempty, happend⟩
  · simp only [happend]
    have hnothing : mutations = [] → Intact ⟨⟨session.wal.file ++ encoded, session.wal.syncPolicy,
        Wal.lastSequenceOf session.wal.lastSequence mutations⟩, next,
        session.acknowledged ++ mutations⟩ := by
      rintro rfl
      cases hencoded
      simp only [List.append_nil]
      exact ⟨h.increasing, h.last, h.file⟩
    rcases hallowed with hclean | hempty | ⟨error, herror⟩ | ⟨_, hcall⟩
    · exact intact_of_holds ((h.holds hclean).append hincreasing hencoded)
    · exact hnothing hempty
    · exact absurd herror (encodeBatch_ne_error hincreasing hencoded)
    · cases hcall
      exact hnothing (hzero rfl)
  · simp only [happend]
    exact h
  · simp only [happend]
    rcases hallowed with hclean | hempty | ⟨error, herror⟩ | ⟨_, hcall⟩
    · exact h.writeFile hclean hincreasing hencoded hwritten
    · exact absurd hempty hnonempty
    · exact absurd herror (encodeBatch_ne_error hincreasing hencoded)
    · cases hcall
      rw [hzero rfl, Wal.writeFile, List.append_nil]
      exact h

/-- A batch that the sequence check rejects leaves the session as it was. -/
theorem step_stale {session : LogSession} {mutations : List WalMutation} {outcome : AppendOutcome}
    (hlegal : session.Legal (.stale mutations outcome)) :
    session.step (.stale mutations outcome) = session := by
  obtain ⟨previous, current, hrejected⟩ := hlegal
  rcases Wal.appendBatch_cases session.wal mutations outcome with
    ⟨-, encoded, -, -, happend⟩ | ⟨error, -, happend⟩ |
    ⟨-, encoded, written, -, -, -, -, happend⟩
  · rw [happend] at hrejected
    cases hrejected
  · simp only [step, happend]
  · rw [happend] at hrejected
    cases hrejected

theorem step_preserves {session : LogSession} {call : Call} (h : session.Intact)
    (hallowed : session.Undisturbed call) : (session.step call).Intact := by
  cases call with
  | append batch outcome => exact append_preserves h hallowed
  | stale mutations outcome => rwa [step_stale hallowed.1]

theorem Intact.replaysAcknowledged {session : LogSession} (h : session.Intact) :
    session.ReplaysAcknowledged := by
  obtain ⟨whole, residue, batch, encoded, hwhole, hfile, hencoded, hincreasing, hresidue⟩ := h.file
  rw [h.last] at hincreasing
  obtain ⟨result, hresult, -⟩ := Wal.decodeFrames_prefix hencoded hincreasing hresidue
  have hdecode := Wal.decodeFrames_frames hwhole h.increasing residue
  rw [hresult, ← hfile] at hdecode
  exact ⟨_, hdecode, List.sublist_append_left _ _⟩

/-- In every run in which nothing is written behind the bytes of a failed
append, replay returns every acknowledged mutation. -/
theorem replaysAcknowledged_of_undisturbed {session final : LogSession}
    (hstart : session.wal.Holds session.acknowledged)
    (hrun : Reaches step Undisturbed session final) : final.ReplaysAcknowledged := by
  have hintact : final.Intact :=
    hrun.invariant Intact (intact_of_holds hstart) fun _ _ h hallowed => step_preserves h hallowed
  exact hintact.replaysAcknowledged

/-- A session on a log that has never been written. -/
def fresh (syncPolicy : SyncPolicy) : LogSession := ⟨Wal.fresh syncPolicy, 1, []⟩

def samplePending : PendingMutation := .delete ⟨"a", CollectionId.validate_a⟩ (.unsigned 0)

theorem replaysAcknowledged_sample :
    ReplaysAcknowledged ((fresh .durable).step (.append [samplePending] .done)) :=
  replaysAcknowledged_of_undisturbed (Wal.fresh_holds .durable)
    ((Reaches.refl (fresh .durable)).tail _ ⟨trivial, Or.inl rfl⟩)

/-- The first append fails in `sync_data` after its bytes reached the file; the
second reuses its sequence number and is acknowledged. -/
theorem not_replaysAcknowledged_reused_sequence : ∃ final : LogSession,
    Reaches step Legal (fresh .durable) final ∧ ¬final.ReplaysAcknowledged := by
  refine ⟨((fresh .durable).step (.append [samplePending] .syncFails)).step
    (.append [samplePending] .done), ((Reaches.refl _).tail _ trivial).tail _ trivial, ?_⟩
  obtain ⟨payload, hframe⟩ := Wal.encodeFrame_sampleDelete 1
  set frame := Wal.encodeHeader Wal.opDelete 1 payload ++ payload
  have hbatch (wal : Wal) (hlast : wal.lastSequence = none) :
      Wal.encodeBatch wal.lastSequence [Wal.sampleDelete 1] = .ok (frame, some 1) := by
    refine Wal.encodeBatch_ok_iff.mpr ⟨by rw [hlast]; exact ⟨nofun, trivial⟩, ?_, rfl⟩
    rw [Wal.encodeFrames_cons hframe rfl, List.append_nil]
  have hfirst : (Wal.fresh .durable).appendBatch [Wal.sampleDelete 1] .syncFails =
      (⟨frame, .durable, none⟩, .error .io) := by
    simp only [Wal.appendBatch, hbatch (Wal.fresh .durable) rfl]
    rfl
  have hsecond : Wal.appendBatch ⟨frame, .durable, none⟩ [Wal.sampleDelete 1] .done =
      (⟨frame ++ frame, .durable, some 1⟩, .ok ()) := by
    simp only [Wal.appendBatch, hbatch ⟨frame, .durable, none⟩ rfl]
    rfl
  have hnumbered : numberFrom 1 [samplePending] = ([Wal.sampleDelete 1], 2) := rfl
  have hafter : (fresh .durable).step (.append [samplePending] .syncFails) =
      ⟨⟨frame, .durable, none⟩, 1, []⟩ := by
    simp only [step, fresh, hnumbered, hfirst]
  rw [hafter]
  simp only [step, hnumbered, hsecond]
  rintro ⟨result, hreplay, -⟩
  have hfollows : Wal.Follows none (Wal.sampleDelete 1).sequenceNumber := nofun
  have hregression := Wal.decodeFrames_regression hframe (UInt64.le_refl 1) []
  rw [List.append_nil] at hregression
  simp only [Wal.replay, Wal.decodeLog] at hreplay
  rw [Wal.decodeFrames_frame hframe hfollows] at hreplay
  change (Wal.decodeFrames (some 1) frame).map _ = _ at hreplay
  rw [hregression] at hreplay
  cases hreplay

end LogSession

end Ketebe
