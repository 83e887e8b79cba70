import Ketebe.WalCodec

/-!
Replay of whole frames. A complete frame is decoded to its mutation whatever
follows it, a proper prefix of a frame is an ignored tail, and the entry
decoded first is determined by the header it starts with.
-/
namespace Ketebe.Wal

open Lib.ByteCodec

/-! ### Headers -/

section Header

variable (operation : UInt8) (sequence : SequenceNumber) (payload : Bytes)

@[simp] theorem length_encodeHeader :
    (encodeHeader operation sequence payload).length = headerLen := by
  simp [encodeHeader, magic, headerLen]

theorem validateHeader_encodeHeader :
    validateHeader (encodeHeader operation sequence payload) = .ok () := by
  simp [validateHeader, encodeHeader, magic]

theorem headerOperation_encodeHeader :
    headerOperation (encodeHeader operation sequence payload) = operation := by
  simp [headerOperation, encodeHeader, magic]

theorem headerPayloadLen_encodeHeader (h : payload.length < 256 ^ 4) :
    headerPayloadLen (encodeHeader operation sequence payload) = payload.length := by
  have hslice : ((encodeHeader operation sequence payload).drop 8).take 4 =
      leBytes 4 payload.length := by
    simp [encodeHeader, magic]
  rw [headerPayloadLen, hslice, leValue_leBytes 4 _ h]

theorem headerSequence_encodeHeader :
    headerSequence (encodeHeader operation sequence payload) = sequence := by
  have hslice : ((encodeHeader operation sequence payload).drop 12).take 8 =
      leBytes 8 sequence.toNat := by
    simp [encodeHeader, magic]
  rw [headerSequence, hslice, leValue_leBytes 8 _ sequence.toNat_lt, UInt64.ofNat_toNat]

theorem headerChecksum_encodeHeader :
    headerChecksum (encodeHeader operation sequence payload) = crc32 payload := by
  have hslice : ((encodeHeader operation sequence payload).drop 20).take 4 =
      leBytes 4 (crc32 payload).toNat := by
    simp [encodeHeader, magic, List.drop_append, List.drop_of_length_le,
      List.take_of_length_le]
  rw [headerChecksum, hslice, leValue_leBytes 4 _ (crc32 payload).toNat_lt, UInt32.ofNat_toNat]

end Header

/-! ### Frames -/

/-- What a successful encoding of one frame consists of. -/
theorem encodeFrame_ok {mutation : WalMutation} {frame : Bytes}
    (h : encodeFrame mutation = .ok frame) : ∃ operation payload,
      encodePayload mutation = .ok (operation, payload) ∧ payload.length < 256 ^ 4 ∧
        frame = encodeHeader operation mutation.sequenceNumber payload ++ payload := by
  obtain ⟨⟨operation, payload⟩, hpayload, h⟩ := except_bind_ok.mp h
  by_cases hlen : payload.length < 256 ^ 4
  · simp only [if_pos hlen] at h
    cases h
    exact ⟨operation, payload, hpayload, hlen, rfl⟩
  · simp only [if_neg hlen] at h
    cases h

theorem headerLen_le_length_encodeFrame {mutation : WalMutation} {frame : Bytes}
    (h : encodeFrame mutation = .ok frame) : headerLen ≤ frame.length := by
  obtain ⟨operation, payload, -, -, rfl⟩ := encodeFrame_ok h
  simp

/-- The sequence check that precedes a frame. -/
def Follows (previous : Option SequenceNumber) (sequence : SequenceNumber) : Prop :=
  ∀ last ∈ previous, last < sequence

theorem checkSequence_of_follows {previous : Option SequenceNumber} {sequence : SequenceNumber}
    (h : Follows previous sequence) : checkSequence previous sequence = .ok () := by
  cases previous with
  | none => rfl
  | some last => exact if_neg (UInt64.not_le.mpr (h last rfl))

theorem follows_of_checkSequence {previous : Option SequenceNumber} {sequence : SequenceNumber}
    (h : checkSequence previous sequence = .ok ()) : Follows previous sequence := by
  intro last hlast
  cases hlast
  simp only [checkSequence] at h
  split at h
  · cases h
  · rename_i hnot
    exact UInt64.not_le.mp hnot

/-- One iteration of the replay loop on a header and the payload it announces. -/
theorem decodeFrames_header {header payload : Bytes} (hheader : header.length = headerLen)
    (hvalid : validateHeader header = .ok ()) (hlen : headerPayloadLen header = payload.length)
    (previous : Option SequenceNumber) (rest : Bytes) :
    decodeFrames previous (header ++ (payload ++ rest)) = (do
      checkSequence previous (headerSequence header)
      if crc32 payload ≠ headerChecksum header then
        throw (.checksumMismatch (headerSequence header))
      else do
        let entry ← decodePayload (headerOperation header) (headerSequence header) payload
        let result ← decodeFrames (some (headerSequence header)) rest
        pure (result.cons entry)) := by
  have htake : (header ++ (payload ++ rest)).take headerLen = header := by
    rw [← hheader, List.take_left]
  have hdrop : (header ++ (payload ++ rest)).drop headerLen = payload ++ rest := by
    rw [← hheader, List.drop_left]
  have hrest : (header ++ (payload ++ rest)).drop (headerLen + payload.length) = rest := by
    rw [← List.drop_drop, hdrop, List.drop_left]
  have hlong : ¬(header ++ (payload ++ rest)).length < headerLen := by
    simp only [List.length_append, hheader]
    omega
  have hfull : ¬(header ++ (payload ++ rest)).length < headerLen + payload.length := by
    simp only [List.length_append, hheader]
    omega
  rw [decodeFrames, if_neg hlong]
  simp only [htake, hvalid, hlen, if_neg hfull, hdrop, List.take_left, hrest]
  rfl

/-- A complete frame is decoded to its mutation, whatever follows it. -/
theorem decodeFrames_frame {mutation : WalMutation} {frame : Bytes}
    (hframe : encodeFrame mutation = .ok frame) {previous : Option SequenceNumber}
    (hprevious : Follows previous mutation.sequenceNumber) (rest : Bytes) :
    decodeFrames previous (frame ++ rest) =
      (decodeFrames (some mutation.sequenceNumber) rest).map (ReplayResult.cons mutation) := by
  obtain ⟨operation, payload, hpayload, hlen, rfl⟩ := encodeFrame_ok hframe
  rw [List.append_assoc, decodeFrames_header (length_encodeHeader ..)
    (validateHeader_encodeHeader ..) (headerPayloadLen_encodeHeader _ _ _ hlen)]
  simp only [headerSequence_encodeHeader, headerOperation_encodeHeader,
    headerChecksum_encodeHeader, checkSequence_of_follows hprevious,
    decodePayload_encodePayload hpayload, ne_eq, not_true_eq_false, if_false]
  cases decodeFrames (some mutation.sequenceNumber) rest with
  | error error => rfl
  | ok result => rfl

/-- A complete frame whose sequence number does not increase stops replay. -/
theorem decodeFrames_regression {mutation : WalMutation} {frame : Bytes}
    (hframe : encodeFrame mutation = .ok frame) {previous : SequenceNumber}
    (hprevious : mutation.sequenceNumber ≤ previous) (rest : Bytes) :
    decodeFrames (some previous) (frame ++ rest) =
      .error (.sequenceRegression previous mutation.sequenceNumber) := by
  obtain ⟨operation, payload, -, hlen, rfl⟩ := encodeFrame_ok hframe
  rw [List.append_assoc, decodeFrames_header (length_encodeHeader ..)
    (validateHeader_encodeHeader ..) (headerPayloadLen_encodeHeader _ _ _ hlen)]
  simp only [headerSequence_encodeHeader, checkSequence, if_pos hprevious]
  rfl

/-- A proper prefix of a frame is an ignored tail. -/
theorem decodeFrames_torn {mutation : WalMutation} {frame torn : Bytes}
    (hframe : encodeFrame mutation = .ok frame) (htorn : torn <+: frame)
    (hproper : torn.length < frame.length) (previous : Option SequenceNumber) :
    decodeFrames previous torn = .ok ⟨[], torn.length⟩ := by
  rw [decodeFrames]
  by_cases hshort : torn.length < headerLen
  · rw [if_pos hshort]
  · obtain ⟨operation, payload, -, hlen, rfl⟩ := encodeFrame_ok hframe
    have htake : torn.take headerLen =
        encodeHeader operation mutation.sequenceNumber payload := by
      have hearlier : encodeHeader operation mutation.sequenceNumber payload <+: torn := by
        refine List.prefix_of_prefix_length_le (List.prefix_append _ payload) htorn ?_
        rw [length_encodeHeader]
        omega
      rw [List.prefix_iff_eq_take] at hearlier
      rw [hearlier, length_encodeHeader]
    have hpartial : torn.length < headerLen + payload.length := by
      simpa only [List.length_append, length_encodeHeader] using hproper
    rw [if_neg hshort]
    simp only [htake, validateHeader_encodeHeader, headerPayloadLen_encodeHeader _ _ _ hlen,
      if_pos hpartial]
    rfl

/-- The entry decoded first carries the sequence number and the operation of
the header that the bytes start with. -/
theorem decodeFrames_first {previous : Option SequenceNumber} {bytes : Bytes}
    {entry : WalMutation} {entries : List WalMutation} {tail : ℕ}
    (h : decodeFrames previous bytes = .ok ⟨entry :: entries, tail⟩) :
    entry.sequenceNumber = headerSequence (bytes.take headerLen) ∧
      operationOf entry = headerOperation (bytes.take headerLen) := by
  rw [decodeFrames] at h
  split at h
  · cases h
  · obtain ⟨_, -, h⟩ := except_bind_ok.mp h
    simp only at h
    split at h
    · cases h
    · obtain ⟨_, -, h⟩ := except_bind_ok.mp h
      split at h
      · cases h
      · obtain ⟨first, hfirst, h⟩ := except_bind_ok.mp h
        obtain ⟨rest, -, h⟩ := except_bind_ok.mp h
        cases h
        exact And.symm (decodePayload_ok hfirst)

end Ketebe.Wal
