import Ketebe.WalAppend
import Mathlib.Tactic.IntervalCases

/-!
Reopening a log after a crash. The log may have been cut at any byte. Opening
reads the complete frames but leaves the torn one in the file, and later
batches are appended behind it, so they replay as acknowledged exactly when
the cut fell between two frames.
-/
namespace Ketebe

open Lib.ByteCodec

namespace Wal

/-- A log that has never been written. -/
def fresh (syncPolicy : SyncPolicy) : Wal := ⟨[], syncPolicy, none⟩

/-- Appends batch after batch, all of which must return `Ok`. -/
def appendAll (wal : Wal) : List (List WalMutation) → Except WalError Wal
  | [] => .ok wal
  | batch :: rest =>
      match wal.appendBatch batch .done with
      | (next, .ok ()) => next.appendAll rest
      | (_, .error error) => .error error

/-- The file is the frames of these mutations and nothing else. -/
structure Holds (wal : Wal) (mutations : List WalMutation) : Prop where
  frames : encodeFrames mutations = .ok wal.file
  increasing : Increasing none mutations
  last : wal.lastSequence = lastSequenceOf none mutations

theorem fresh_holds (syncPolicy : SyncPolicy) : (fresh syncPolicy).Holds [] :=
  ⟨rfl, trivial, rfl⟩

theorem Holds.append {wal : Wal} {mutations batch : List WalMutation} {encoded : Bytes}
    (hholds : wal.Holds mutations) (hincreasing : Increasing wal.lastSequence batch)
    (hencoded : encodeFrames batch = .ok encoded) :
    Holds ⟨wal.file ++ encoded, wal.syncPolicy, lastSequenceOf wal.lastSequence batch⟩
      (mutations ++ batch) := by
  rw [hholds.last] at hincreasing
  refine ⟨encodeFrames_append hholds.frames hencoded, ?_, ?_⟩
  · exact (increasing_append ..).mpr ⟨hholds.increasing, hincreasing⟩
  · rw [lastSequenceOf_append, ← hholds.last]

theorem Holds.appendBatch {wal next : Wal} {mutations batch : List WalMutation}
    (hholds : wal.Holds mutations) (h : wal.appendBatch batch .done = (next, .ok ())) :
    next.Holds (mutations ++ batch) := by
  obtain ⟨hincreasing, encoded, hencoded, rfl⟩ := appendBatch_done_iff.mp h
  exact hholds.append hincreasing hencoded

theorem Holds.appendAll {wal next : Wal} {mutations : List WalMutation}
    {batches : List (List WalMutation)} (hholds : wal.Holds mutations)
    (h : wal.appendAll batches = .ok next) : next.Holds (mutations ++ batches.flatten) := by
  induction batches generalizing wal mutations with
  | nil =>
    cases h
    simpa using hholds
  | cons batch rest ih =>
    simp only [Wal.appendAll] at h
    split at h
    · rename_i middle hbatch
      have hmiddle := ih (hholds.appendBatch hbatch) h
      rwa [List.append_assoc, ← List.flatten_cons] at hmiddle
    · cases h

theorem Holds.replay {wal : Wal} {mutations : List WalMutation} (hholds : wal.Holds mutations) :
    wal.replay = .ok ⟨mutations, 0⟩ :=
  decodeLog_frames hholds.frames hholds.increasing

/-- The mutations whose whole frames lie within the first `len` bytes. -/
def completeFrames : List WalMutation → ℕ → List WalMutation
  | [], _ => []
  | mutation :: rest, len =>
      match encodeFrame mutation with
      | .ok frame =>
          if frame.length ≤ len then mutation :: completeFrames rest (len - frame.length) else []
      | .error _ => []

/-- Reopening the file succeeds, and whatever batches are then appended with
`Ok`, a later replay returns the complete frames and after them every batch. -/
def ReplaysAcknowledged (syncPolicy : SyncPolicy) (written : List WalMutation) (file : Bytes) :
    Prop :=
  ∃ wal, openWithPolicy (some file) syncPolicy = .ok wal ∧
    ∀ batches next, wal.appendAll batches = .ok next → ∃ ignored, next.replay =
      .ok ⟨completeFrames written file.length ++ batches.flatten, ignored⟩

/-- The file ends between two frames. -/
def OnFrameBoundary (written : List WalMutation) (file : Bytes) : Prop :=
  ∃ count, encodeFrames (written.take count) = .ok file

theorem completeFrames_append {complete : List WalMutation} {whole : Bytes}
    (rest : List WalMutation) (hcomplete : encodeFrames complete = .ok whole) (extra : ℕ) :
    completeFrames (complete ++ rest) (whole.length + extra) =
      complete ++ completeFrames rest extra := by
  induction complete generalizing whole with
  | nil =>
    cases hcomplete
    simp
  | cons mutation tail ih =>
    obtain ⟨frame, hframe, h⟩ := except_bind_ok.mp hcomplete
    obtain ⟨body, hbody, h⟩ := except_bind_ok.mp h
    cases h
    have hfits : frame.length ≤ (frame ++ body).length + extra := by
      rw [List.length_append]
      omega
    have hremaining : (frame ++ body).length + extra - frame.length = body.length + extra := by
      rw [List.length_append]
      omega
    simp only [List.cons_append, completeFrames, hframe, if_pos hfits, hremaining, ih hbody]

/-- No frame is empty, so nothing is complete in no bytes. -/
theorem completeFrames_zero (written : List WalMutation) : completeFrames written 0 = [] := by
  cases written with
  | nil => rfl
  | cons mutation rest =>
    cases hframe : encodeFrame mutation with
    | error error => simp only [completeFrames, hframe]
    | ok frame =>
      have hlen := headerLen_le_length_encodeFrame hframe
      have hlong : ¬frame.length ≤ 0 := by
        unfold headerLen at hlen
        omega
      simp only [completeFrames, hframe, if_neg hlong]

theorem completeFrames_torn {mutation : WalMutation} {rest : List WalMutation} {frame : Bytes}
    (hframe : encodeFrame mutation = .ok frame) {len : ℕ} (hlen : len < frame.length) :
    completeFrames (mutation :: rest) len = [] := by
  simp only [completeFrames, hframe, if_neg (not_le.mpr hlen)]

/-- A file of whole frames is reopened as the log of their mutations. -/
theorem openWithPolicy_frames {complete : List WalMutation} {file : Bytes}
    (hcomplete : encodeFrames complete = .ok file) (hincreasing : Increasing none complete)
    (syncPolicy : SyncPolicy) : ∃ wal, openWithPolicy (some file) syncPolicy = .ok wal ∧
      wal.Holds complete := by
  have hreplay : replayPath (some file) = .ok ⟨complete, 0⟩ :=
    decodeLog_frames hcomplete hincreasing
  refine ⟨⟨file, syncPolicy, lastSequenceOf none complete⟩, ?_, hcomplete, hincreasing, rfl⟩
  rw [openWithPolicy, hreplay, ← getLast?_sequenceNumber]
  rfl

theorem replaysAcknowledged_of_boundary {written : List WalMutation} {file : Bytes}
    (hincreasing : Increasing none written) (hboundary : OnFrameBoundary written file)
    (syncPolicy : SyncPolicy) : ReplaysAcknowledged syncPolicy written file := by
  obtain ⟨count, hcomplete⟩ := hboundary
  have hsplit := List.take_append_drop count written
  have hearlier : Increasing none (written.take count) := by
    rw [← hsplit, increasing_append] at hincreasing
    exact hincreasing.1
  obtain ⟨wal, hopen, hholds⟩ := openWithPolicy_frames hcomplete hearlier syncPolicy
  refine ⟨wal, hopen, fun batches next hnext => ⟨0, ?_⟩⟩
  have hframes := completeFrames_append (written.drop count) hcomplete 0
  rw [hsplit, Nat.add_zero, completeFrames_zero, List.append_nil] at hframes
  rw [(hholds.appendAll hnext).replay, hframes]

/-! ### The torn frame -/

/-- A mutation with the largest sequence number and the operation that the
torn frame does not have. -/
def probe : WalMutation → WalMutation
  | .upsert .. => .delete ⟨"a", CollectionId.validate_a⟩ (.unsigned 0) (UInt64.ofNat maxSequence)
  | .delete .. => .upsert ⟨"a", CollectionId.validate_a⟩
      ⟨.unsigned 0, ⟨[], Vector.finite_nil⟩, .empty, UInt64.ofNat maxSequence⟩

theorem probe_sequenceNumber (mutation : WalMutation) :
    (probe mutation).sequenceNumber = UInt64.ofNat maxSequence := by
  cases mutation <;> rfl

theorem operationOf_probe_ne (mutation : WalMutation) :
    operationOf (probe mutation) ≠ operationOf mutation := by
  have hne : opDelete ≠ opUpsert := by decide
  cases mutation with
  | upsert collectionId record => exact hne
  | delete collectionId recordId sequence => exact hne.symm

/-- The probe's payload is short, so no byte of its length field is `0xff`. -/
theorem encodeFrame_probe (mutation : WalMutation) : ∃ operation payload,
    payload.length < 255 ∧ encodeFrame (probe mutation) =
      .ok (encodeHeader operation (UInt64.ofNat maxSequence) payload ++ payload) := by
  cases mutation with
  | upsert collectionId record => exact ⟨opDelete, _, by decide, rfl⟩
  | delete collectionId recordId sequence => exact ⟨opUpsert, _, by decide, rfl⟩

/-- Byte 12 of a header is the lowest byte of its sequence number. -/
theorem headerSequence_mod (header : Bytes) (hlen : header.length = headerLen) :
    (headerSequence header).toNat % 256 = (header.getD 12 0).toNat := by
  have hfirst : header.getD 12 0 = ((header.drop 12).take 8).getD 0 0 := by
    simp [List.getD_eq_getElem?_getD]
  rw [hfirst, headerSequence, UInt64.toNat_ofNat']
  cases hslice : (header.drop 12).take 8 with
  | nil =>
    have hempty := congrArg List.length hslice
    simp [hlen, headerLen] at hempty
  | cons byte rest =>
    have hbyte : byte.toNat < 256 := byte.toNat_lt
    simp only [leValue, List.getD_cons_zero]
    omega

theorem length_take_header (torn : Bytes) (operation : UInt8) (sequence : SequenceNumber)
    (payload : Bytes) :
    ((torn ++ (encodeHeader operation sequence payload ++ payload)).take headerLen).length =
      headerLen := by
  simp only [List.length_take, List.length_append, length_encodeHeader]
  omega

/-- Bytes 7 to 11 of a frame with a short payload: a reserved byte and the length. -/
theorem frame_middle {operation : UInt8} {sequence : SequenceNumber} {payload rest : Bytes}
    (hpayload : payload.length < 255) : ((encodeHeader operation sequence payload ++ rest).drop 7).take 5 =
      [0, UInt8.ofNat payload.length, 0, 0, 0] := by
  have hdiv : payload.length / 256 = 0 := Nat.div_eq_of_lt (by omega)
  simp [encodeHeader, magic, leBytes, hdiv]

/-- Behind fewer than six torn bytes the sequence field starts inside the
reserved and length fields of the frame that follows. -/
theorem headerSequence_shifted {torn payload : Bytes} (operation : UInt8)
    (sequence : SequenceNumber) (hnonempty : torn ≠ []) (hshort : torn.length < 6)
    (hpayload : payload.length < 255) :
    headerSequence ((torn ++ (encodeHeader operation sequence payload ++ payload)).take headerLen) ≠
      UInt64.ofNat maxSequence := by
  intro h
  have hpos := List.length_pos_of_ne_nil hnonempty
  have hbyte := headerSequence_mod _ (length_take_header torn operation sequence payload)
  have hfield : ((torn ++ (encodeHeader operation sequence payload ++ payload)).take
      headerLen).getD 12 0 = (((encodeHeader operation sequence payload ++ payload).drop 7).take
        5).getD (5 - torn.length) 0 := by
    have hindex : 7 + (5 - torn.length) = 12 - torn.length := by omega
    simp only [List.getD_eq_getElem?_getD, List.getElem?_take, List.getElem?_drop, hindex,
      headerLen]
    rw [if_pos (by omega), if_pos (by omega), List.getElem?_append_right (by omega)]
  rw [h, hfield, frame_middle hpayload] at hbyte
  have hmax : (UInt64.ofNat maxSequence).toNat % 256 = 255 := by decide
  rw [hmax] at hbyte
  interval_cases hlen : torn.length <;> simp at hbyte
  omega

/-- From six torn bytes on, the header carries the torn frame's operation. -/
theorem headerOperation_torn {torn rest : Bytes} {operation : UInt8} {sequence : SequenceNumber}
    {payload : Bytes} (htorn : torn <+: encodeHeader operation sequence payload ++ payload)
    (hlong : 6 ≤ torn.length) :
    headerOperation ((torn ++ rest).take headerLen) = operation := by
  obtain ⟨tail, htail⟩ := htorn
  have hheader := headerOperation_encodeHeader operation sequence payload
  have hbyte : torn[5]? = (encodeHeader operation sequence payload)[5]? := by
    rw [← List.getElem?_append_left (by omega : 5 < torn.length), htail,
      List.getElem?_append_left (by rw [length_encodeHeader]; decide)]
  rw [headerOperation, List.getD_eq_getElem?_getD] at hheader ⊢
  rw [List.getElem?_take, if_pos (by decide), List.getElem?_append_left (by omega), hbyte]
  exact hheader

theorem not_replaysAcknowledged_of_torn {complete rest : List WalMutation}
    {mutation : WalMutation} {whole frame torn : Bytes}
    (hincreasing : Increasing none (complete ++ mutation :: rest))
    (hcomplete : encodeFrames complete = .ok whole) (hframe : encodeFrame mutation = .ok frame)
    (htorn : torn <+: frame) (hnonempty : torn ≠ []) (hproper : torn.length < frame.length)
    (syncPolicy : SyncPolicy) :
    ¬ReplaysAcknowledged syncPolicy (complete ++ mutation :: rest) (whole ++ torn) := by
  rintro ⟨wal, hopen, hreplays⟩
  obtain ⟨hearlier, hfollows, -⟩ := (increasing_append ..).mp hincreasing
  have hdecode := decodeFrames_frames hcomplete hearlier torn
  rw [decodeFrames_torn hframe htorn hproper] at hdecode
  have hwal : wal = ⟨whole ++ torn, syncPolicy, lastSequenceOf none complete⟩ := by
    rw [openWithPolicy, replayPath, decodeLog, hdecode] at hopen
    cases hopen
    simp only [ReplayResult.prepend, List.append_nil, getLast?_sequenceNumber, Option.getD_some]
  obtain ⟨operation, payload, hpayload, hprobe⟩ := encodeFrame_probe mutation
  have hprobeFollows : Follows (lastSequenceOf none complete) (probe mutation).sequenceNumber := by
    intro last hlast
    have hlt := UInt64.lt_iff_toNat_lt.mp (hfollows last hlast)
    have hbound := mutation.sequenceNumber.toNat_lt
    rw [probe_sequenceNumber, UInt64.lt_iff_toNat_lt]
    have hmax : (UInt64.ofNat maxSequence).toNat = 2 ^ 64 - 1 := by decide
    omega
  have happend : wal.appendAll [[probe mutation]] =
      .ok ⟨wal.file ++ (encodeHeader operation (UInt64.ofNat maxSequence) payload ++ payload),
        syncPolicy, some (probe mutation).sequenceNumber⟩ := by
    have hbatch : wal.appendBatch [probe mutation] .done = (_, .ok ()) :=
      appendBatch_done_iff.mpr ⟨by rw [hwal]; exact ⟨hprobeFollows, trivial⟩, _,
        encodeFrames_cons hprobe rfl, rfl⟩
    rw [appendAll, hbatch]
    simp only [appendAll, List.append_nil, lastSequenceOf, hwal]
  obtain ⟨ignored, hreplay⟩ := hreplays _ _ happend
  have hframes := completeFrames_append (mutation :: rest) hcomplete torn.length
  rw [completeFrames_torn hframe hproper, List.append_nil] at hframes
  rw [Wal.replay, decodeLog, hwal, List.length_append, hframes, List.append_assoc,
    decodeFrames_frames hcomplete hearlier] at hreplay
  cases hrest : decodeFrames (lastSequenceOf none complete)
      (torn ++ (encodeHeader operation (UInt64.ofNat maxSequence) payload ++ payload)) with
  | error error =>
    rw [hrest] at hreplay
    cases hreplay
  | ok result =>
    obtain ⟨entries, tail⟩ := result
    rw [hrest] at hreplay
    have hentries : entries = [probe mutation] := by
      simpa [Except.map, ReplayResult.prepend] using congrArg
        (fun result => result.map ReplayResult.entries) hreplay
    rw [hentries] at hrest
    obtain ⟨hsequence, hoperation⟩ := decodeFrames_first hrest
    rcases Nat.lt_or_ge torn.length 6 with hshort | hlong
    · rw [probe_sequenceNumber] at hsequence
      exact headerSequence_shifted operation _ hnonempty hshort hpayload hsequence.symm
    · obtain ⟨tornOperation, tornPayload, htornPayload, -, rfl⟩ := encodeFrame_ok hframe
      rw [headerOperation_torn htorn hlong, encodePayload_operation htornPayload] at hoperation
      exact operationOf_probe_ne mutation hoperation

/-- A reopened log replays everything acknowledged exactly when it was cut
between two frames. -/
theorem replaysAcknowledged_iff {syncPolicy : SyncPolicy} {batches : List (List WalMutation)}
    {log : Wal} {file : Bytes} (hlog : (fresh syncPolicy).appendAll batches = .ok log)
    (hfile : file <+: log.file) :
    ReplaysAcknowledged syncPolicy batches.flatten file ↔
      OnFrameBoundary batches.flatten file := by
  have hholds := (fresh_holds syncPolicy).appendAll hlog
  rw [List.nil_append] at hholds
  constructor
  · intro hreplays
    rcases prefix_of_frames hholds.frames hfile with ⟨complete, rest, hsplit, hcomplete⟩ |
      ⟨complete, mutation, rest, whole, frame, torn, hsplit, hcomplete, hframe, rfl, htorn,
        hnonempty, hproper⟩
    · exact ⟨complete.length, by rw [hsplit, List.take_left]; exact hcomplete⟩
    · rw [hsplit] at hreplays
      have hincreasing := hholds.increasing
      rw [hsplit] at hincreasing
      exact absurd hreplays (not_replaysAcknowledged_of_torn hincreasing hcomplete hframe htorn
        hnonempty hproper syncPolicy)
  · exact fun hboundary => replaysAcknowledged_of_boundary hholds.increasing hboundary syncPolicy

/-- Deletes one record of one collection. -/
def sampleDelete (sequence : SequenceNumber) : WalMutation :=
  .delete ⟨"a", CollectionId.validate_a⟩ (.unsigned 0) sequence

theorem encodeFrame_sampleDelete (sequence : SequenceNumber) : ∃ payload,
    encodeFrame (sampleDelete sequence) = .ok (encodeHeader opDelete sequence payload ++ payload) :=
  ⟨_, rfl⟩

theorem appendAll_sampleDelete : ∃ payload,
    (fresh .durable).appendAll [[sampleDelete 1]] =
      .ok ⟨encodeHeader opDelete 1 payload ++ payload, .durable, some 1⟩ := by
  obtain ⟨payload, hframe⟩ := encodeFrame_sampleDelete 1
  have hbatch : (fresh .durable).appendBatch [sampleDelete 1] .done = (_, .ok ()) :=
    appendBatch_done_iff.mpr ⟨⟨nofun, trivial⟩, _, encodeFrames_cons hframe rfl, rfl⟩
  refine ⟨payload, ?_⟩
  rw [appendAll, hbatch]
  simp [appendAll, fresh, lastSequenceOf, sampleDelete, WalMutation.sequenceNumber]

theorem replaysAcknowledged_iff_sample : ∃ log : Wal,
    (fresh .durable).appendAll [[sampleDelete 1]] = .ok log ∧
      (ReplaysAcknowledged .durable [sampleDelete 1] [] ↔
        OnFrameBoundary [sampleDelete 1] []) := by
  obtain ⟨payload, hlog⟩ := appendAll_sampleDelete
  exact ⟨_, hlog, replaysAcknowledged_iff hlog List.nil_prefix⟩

/-- The log of one delete, cut after its first byte. -/
theorem not_replaysAcknowledged_first_byte : ∃ log : Wal,
    (fresh .durable).appendAll [[sampleDelete 1]] = .ok log ∧ [0x4b] <+: log.file ∧
      ¬ReplaysAcknowledged .durable [sampleDelete 1] [0x4b] := by
  obtain ⟨payload, hlog⟩ := appendAll_sampleDelete
  obtain ⟨payload', hframe⟩ := encodeFrame_sampleDelete 1
  have hearlier (payload : Bytes) : [0x4b] <+: encodeHeader opDelete 1 payload ++ payload :=
    ⟨_, rfl⟩
  refine ⟨_, hlog, hearlier payload, ?_⟩
  have hincreasing : Increasing none ([] ++ [sampleDelete 1]) := ⟨nofun, trivial⟩
  have hwhole : encodeFrames [] = .ok [] := rfl
  refine not_replaysAcknowledged_of_torn hincreasing hwhole hframe (hearlier payload')
    (List.cons_ne_nil _ _) ?_ .durable
  have hlen := headerLen_le_length_encodeFrame hframe
  unfold headerLen at hlen
  simp only [List.length_singleton]
  omega

end Wal

end Ketebe
