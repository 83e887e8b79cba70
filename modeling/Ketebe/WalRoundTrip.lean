import Ketebe.RecordSizes
import Ketebe.WalRecovery

/-!
The log format as a whole. Mutations whose lengths fit are always encoded, the
encoded log replays to them, and any prefix of it to the mutations whose frames
are complete.
-/
namespace Ketebe.Wal

open Lib.ByteCodec

/-- Every length inside the mutation fits into 32 bits. -/
def MutationFits : WalMutation → Prop
  | .upsert _ record => RecordFits record
  | .delete _ recordId _ => IdFits recordId

/-- So does the length of the payload that its frame announces. -/
structure FrameFits (mutation : WalMutation) : Prop where
  lengths : MutationFits mutation
  payload : ∀ operation payload, encodePayload mutation = .ok (operation, payload) →
    payload.length < 256 ^ 4

theorem encodePayload_exists {mutation : WalMutation} (h : MutationFits mutation) :
    ∃ operation payload, encodePayload mutation = .ok (operation, payload) := by
  cases mutation with
  | upsert collectionId record =>
    obtain ⟨collection, hcollection⟩ := writeString_exists collectionId.length_asStr
    obtain ⟨id, hid⟩ := writeRecordId_exists h.id
    obtain ⟨vector, hvector⟩ := writeVector_exists h.vector
    obtain ⟨metadata, hmetadata⟩ := writeMetadata_exists h.metadata
    exact ⟨_, _, except_bind_ok.mpr ⟨collection, hcollection, except_bind_ok.mpr ⟨id, hid,
      except_bind_ok.mpr ⟨vector, hvector, except_bind_ok.mpr ⟨metadata, hmetadata, rfl⟩⟩⟩⟩⟩
  | delete collectionId recordId sequence =>
    obtain ⟨collection, hcollection⟩ := writeString_exists collectionId.length_asStr
    obtain ⟨id, hid⟩ := writeRecordId_exists h
    exact ⟨_, _, except_bind_ok.mpr ⟨collection, hcollection, except_bind_ok.mpr ⟨id, hid, rfl⟩⟩⟩

theorem encodeFrame_exists {mutation : WalMutation} (h : FrameFits mutation) :
    ∃ frame, encodeFrame mutation = .ok frame := by
  obtain ⟨operation, payload, hpayload⟩ := encodePayload_exists h.lengths
  have hlen := h.payload operation payload hpayload
  refine ⟨encodeHeader operation mutation.sequenceNumber payload ++ payload, ?_⟩
  rw [encodeFrame, hpayload, except_ok_bind]
  simp only [if_pos hlen]
  rfl

theorem encodeFrames_exists {mutations : List WalMutation}
    (h : ∀ mutation ∈ mutations, FrameFits mutation) :
    ∃ encoded, encodeFrames mutations = .ok encoded := by
  induction mutations with
  | nil => exact ⟨[], rfl⟩
  | cons head rest ih =>
    obtain ⟨frame, hframe⟩ := encodeFrame_exists (h head (List.mem_cons_self ..))
    obtain ⟨encoded, hencoded⟩ := ih fun other hother => h other (List.mem_cons_of_mem _ hother)
    exact ⟨frame ++ encoded, encodeFrames_cons hframe hencoded⟩

/-- A prefix of a log replays to the mutations whose frames it holds entirely. -/
theorem decodeLog_prefix {mutations : List WalMutation} {encoded file : Bytes}
    (hencoded : encodeFrames mutations = .ok encoded) (hincreasing : Increasing none mutations)
    (hfile : file <+: encoded) :
    ∃ ignored, decodeLog file = .ok ⟨completeFrames mutations file.length, ignored⟩ := by
  rcases prefix_of_frames hencoded hfile with ⟨complete, rest, rfl, hcomplete⟩ |
    ⟨complete, mutation, rest, whole, frame, torn, rfl, hcomplete, hframe, rfl, htorn, -, hproper⟩
  · have hearlier := ((increasing_append ..).mp hincreasing).1
    have hframes := completeFrames_append rest hcomplete 0
    rw [Nat.add_zero, completeFrames_zero, List.append_nil] at hframes
    rw [hframes]
    exact ⟨0, decodeLog_frames hcomplete hearlier⟩
  · have hearlier := ((increasing_append ..).mp hincreasing).1
    have hframes := completeFrames_append (mutation :: rest) hcomplete torn.length
    rw [completeFrames_torn hframe hproper, List.append_nil] at hframes
    have hdecode := decodeFrames_frames hcomplete hearlier torn
    rw [decodeFrames_torn hframe htorn hproper] at hdecode
    rw [List.length_append, hframes, decodeLog, hdecode]
    exact ⟨torn.length, by simp only [Except.map, ReplayResult.prepend, List.append_nil]⟩

/-- The format loses nothing: the encoded log replays to its mutations, and cut
anywhere it replays to those whose frames are complete. -/
theorem decodeLog_encodeFrames {mutations : List WalMutation}
    (hincreasing : mutations.Pairwise fun first second =>
      first.sequenceNumber < second.sequenceNumber)
    (hfits : ∀ mutation ∈ mutations, FrameFits mutation) :
    ∃ encoded, encodeFrames mutations = .ok encoded ∧
      decodeLog encoded = .ok ⟨mutations, 0⟩ ∧
      ∀ file, file <+: encoded → ∃ ignored,
        decodeLog file = .ok ⟨completeFrames mutations file.length, ignored⟩ := by
  have hchecked : Increasing none mutations :=
    increasing_iff_pairwise.mpr ⟨fun _ _ => nofun, hincreasing⟩
  obtain ⟨encoded, hencoded⟩ := encodeFrames_exists hfits
  exact ⟨encoded, hencoded, decodeLog_frames hencoded hchecked, fun file hfile =>
    decodeLog_prefix hencoded hchecked hfile⟩

/-- A record with a nested metadata value. -/
def nestedUpsert : WalMutation :=
  .upsert ⟨"a", CollectionId.validate_a⟩ ⟨.unsigned 7, ⟨[], Vector.finite_nil⟩,
    ⟨[("b", .array [.null, .object []])],
      by simp [OrderedFields, OrderedValues, MetadataValue.Ordered]⟩, 1⟩

theorem fits_nestedUpsert : FrameFits nestedUpsert := by
  refine ⟨⟨trivial, by decide, by decide, by decide, ⟨by decide, trivial, ⟨by decide, trivial⟩,
    trivial⟩, trivial⟩, fun operation payload h => ?_⟩
  have hsize : (encodePayload nestedUpsert).map (fun coded => coded.2.length) = .ok 38 := rfl
  rw [h] at hsize
  have hlength : payload.length = 38 := Except.ok.inj hsize
  omega

theorem decodeLog_encodeFrames_nested :
    ∃ encoded, encodeFrames [nestedUpsert] = .ok encoded ∧
      decodeLog encoded = .ok ⟨[nestedUpsert], 0⟩ ∧
      ∀ file, file <+: encoded → ∃ ignored,
        decodeLog file = .ok ⟨completeFrames [nestedUpsert] file.length, ignored⟩ :=
  decodeLog_encodeFrames (List.pairwise_singleton ..)
    (List.forall_mem_singleton.mpr fits_nestedUpsert)

end Ketebe.Wal
