import Ketebe.WalReplay
import Mathlib.Data.List.Induction

/-!
Appending to a log. A batch is written exactly when its sequence numbers keep
increasing and every frame can be encoded; whole frames are replayed as the
mutations they came from, and a prefix of a log is whole frames and a torn one.
-/
namespace Ketebe.Wal

open Lib.ByteCodec

def encodeFrames : List WalMutation → Except WalError Bytes
  | [] => pure []
  | mutation :: rest => do
    let frame ← encodeFrame mutation
    let encoded ← encodeFrames rest
    pure (frame ++ encoded)

/-- Every mutation passes the sequence check after the one before it. -/
def Increasing : Option SequenceNumber → List WalMutation → Prop
  | _, [] => True
  | previous, mutation :: rest =>
      Follows previous mutation.sequenceNumber ∧ Increasing (some mutation.sequenceNumber) rest

/-- The sequence number that the next mutation is checked against. -/
def lastSequenceOf : Option SequenceNumber → List WalMutation → Option SequenceNumber
  | previous, [] => previous
  | _, mutation :: rest => lastSequenceOf (some mutation.sequenceNumber) rest

theorem lastSequenceOf_append (previous : Option SequenceNumber)
    (first second : List WalMutation) :
    lastSequenceOf previous (first ++ second) =
      lastSequenceOf (lastSequenceOf previous first) second := by
  induction first generalizing previous with
  | nil => rfl
  | cons head rest ih => exact ih _

theorem lastSequenceOf_cons (previous : Option SequenceNumber) (head : WalMutation)
    (rest : List WalMutation) : ∃ last, lastSequenceOf previous (head :: rest) = some last := by
  induction rest generalizing previous head with
  | nil => exact ⟨_, rfl⟩
  | cons next rest ih => exact ih (some head.sequenceNumber) next

theorem getLast?_sequenceNumber (mutations : List WalMutation) :
    mutations.getLast?.map WalMutation.sequenceNumber = lastSequenceOf none mutations := by
  cases mutations using List.reverseRecOn with
  | nil => rfl
  | append_singleton init last =>
    rw [List.getLast?_concat, lastSequenceOf_append]
    rfl

theorem increasing_append (previous : Option SequenceNumber) (first second : List WalMutation) :
    Increasing previous (first ++ second) ↔
      Increasing previous first ∧ Increasing (lastSequenceOf previous first) second := by
  induction first generalizing previous with
  | nil => simp [Increasing, lastSequenceOf]
  | cons head rest ih =>
    simp only [List.cons_append, Increasing, lastSequenceOf, ih, and_assoc]

/-- The check against the previous number alone orders all of them. -/
theorem increasing_iff_pairwise {previous : Option SequenceNumber}
    {mutations : List WalMutation} : Increasing previous mutations ↔
      (∀ mutation ∈ mutations, Follows previous mutation.sequenceNumber) ∧
        mutations.Pairwise fun first second => first.sequenceNumber < second.sequenceNumber := by
  induction mutations generalizing previous with
  | nil => simp [Increasing]
  | cons head rest ih =>
    simp only [Increasing, ih, List.forall_mem_cons, List.pairwise_cons]
    constructor
    · rintro ⟨hhead, hrest, hpairwise⟩
      have hlater (mutation : WalMutation) (hmem : mutation ∈ rest) :
          head.sequenceNumber < mutation.sequenceNumber := hrest mutation hmem _ rfl
      refine ⟨⟨hhead, fun mutation hmem last hlast => ?_⟩, hlater, hpairwise⟩
      exact (hhead last hlast).trans (hlater mutation hmem)
    · rintro ⟨⟨hhead, -⟩, hlater, hpairwise⟩
      refine ⟨hhead, fun mutation hmem last hlast => ?_, hpairwise⟩
      cases hlast
      exact hlater mutation hmem

theorem encodeFrames_cons {mutation : WalMutation} {rest : List WalMutation}
    {frame encoded : Bytes} (hframe : encodeFrame mutation = .ok frame)
    (hrest : encodeFrames rest = .ok encoded) :
    encodeFrames (mutation :: rest) = .ok (frame ++ encoded) :=
  except_bind_ok.mpr ⟨frame, hframe, except_bind_ok.mpr ⟨encoded, hrest, rfl⟩⟩

theorem encodeFrames_append {first second : List WalMutation} {encoded encoded' : Bytes}
    (hfirst : encodeFrames first = .ok encoded) (hsecond : encodeFrames second = .ok encoded') :
    encodeFrames (first ++ second) = .ok (encoded ++ encoded') := by
  induction first generalizing encoded with
  | nil =>
    cases hfirst
    exact hsecond
  | cons head rest ih =>
    obtain ⟨frame, hframe, h⟩ := except_bind_ok.mp hfirst
    obtain ⟨tail, htail, h⟩ := except_bind_ok.mp h
    cases h
    rw [List.append_assoc]
    exact encodeFrames_cons hframe (ih htail)

theorem encodeBatch_ok_iff {previous last : Option SequenceNumber} {mutations : List WalMutation}
    {encoded : Bytes} : encodeBatch previous mutations = .ok (encoded, last) ↔
      Increasing previous mutations ∧ encodeFrames mutations = .ok encoded ∧
        last = lastSequenceOf previous mutations := by
  induction mutations generalizing previous encoded with
  | nil =>
    simp [encodeBatch, Increasing, encodeFrames, lastSequenceOf, pure, Except.pure, eq_comm]
  | cons mutation rest ih =>
    constructor
    · intro h
      obtain ⟨_, hcheck, h⟩ := except_bind_ok.mp h
      obtain ⟨frame, hframe, h⟩ := except_bind_ok.mp h
      obtain ⟨⟨tail, final⟩, htail, h⟩ := except_bind_ok.mp h
      cases h
      obtain ⟨hincreasing, hencoded, hlast⟩ := ih.mp htail
      exact ⟨⟨follows_of_checkSequence hcheck, hincreasing⟩,
        encodeFrames_cons hframe hencoded, hlast⟩
    · rintro ⟨⟨hfollows, hincreasing⟩, hencoded, hlast⟩
      obtain ⟨frame, hframe, h⟩ := except_bind_ok.mp hencoded
      obtain ⟨tail, htail, h⟩ := except_bind_ok.mp h
      cases h
      refine except_bind_ok.mpr ⟨(), checkSequence_of_follows hfollows, ?_⟩
      refine except_bind_ok.mpr ⟨frame, hframe, ?_⟩
      refine except_bind_ok.mpr ⟨(tail, last), ih.mpr ⟨hincreasing, htail, hlast⟩, rfl⟩

def ReplayResult.prepend (entries : List WalMutation) (result : ReplayResult) : ReplayResult :=
  ⟨entries ++ result.entries, result.ignoredTailBytes⟩

/-- Whole frames are replayed as their mutations. -/
theorem decodeFrames_frames {mutations : List WalMutation} {encoded : Bytes}
    {previous : Option SequenceNumber} (hencoded : encodeFrames mutations = .ok encoded)
    (hincreasing : Increasing previous mutations) (rest : Bytes) :
    decodeFrames previous (encoded ++ rest) =
      (decodeFrames (lastSequenceOf previous mutations) rest).map
        (ReplayResult.prepend mutations) := by
  induction mutations generalizing previous encoded with
  | nil =>
    cases hencoded
    rw [List.nil_append, lastSequenceOf]
    cases decodeFrames previous rest <;> rfl
  | cons mutation tail ih =>
    obtain ⟨frame, hframe, h⟩ := except_bind_ok.mp hencoded
    obtain ⟨body, hbody, h⟩ := except_bind_ok.mp h
    cases h
    rw [List.append_assoc, decodeFrames_frame hframe hincreasing.1, ih hbody hincreasing.2,
      lastSequenceOf]
    cases decodeFrames (lastSequenceOf (some mutation.sequenceNumber) tail) rest <;> rfl

theorem decodeFrames_nil (previous : Option SequenceNumber) :
    decodeFrames previous [] = .ok ⟨[], 0⟩ := by
  rw [decodeFrames]
  rfl

theorem decodeLog_frames {mutations : List WalMutation} {encoded : Bytes}
    (hencoded : encodeFrames mutations = .ok encoded) (hincreasing : Increasing none mutations) :
    decodeLog encoded = .ok ⟨mutations, 0⟩ := by
  have h := decodeFrames_frames hencoded hincreasing []
  rw [List.append_nil, decodeFrames_nil] at h
  simpa only [decodeLog, Except.map, ReplayResult.prepend, List.append_nil] using h

theorem map_prepend_nil (result : Except WalError ReplayResult) :
    result.map (ReplayResult.prepend []) = result := by
  cases result <;> rfl

/-- Behind a file that ends between two frames decoding goes on as behind its entries. -/
theorem decodeFrames_append {previous : Option SequenceNumber} {file : Bytes}
    {entries : List WalMutation} (h : decodeFrames previous file = .ok ⟨entries, 0⟩) (rest : Bytes) :
    decodeFrames previous (file ++ rest) =
      (decodeFrames (lastSequenceOf previous entries) rest).map (ReplayResult.prepend entries) := by
  induction hlength : file.length using Nat.strong_induction_on
    generalizing file previous entries with
  | _ length ih =>
    rw [decodeFrames] at h
    split at h
    · have hresult := Except.ok.inj h
      have hempty : file = [] := List.length_eq_zero_iff.mp (congrArg ReplayResult.ignoredTailBytes hresult)
      have hentries : [] = entries := congrArg ReplayResult.entries hresult
      rw [hempty, ← hentries, List.nil_append, map_prepend_nil]
      rfl
    · rename_i hlong
      obtain ⟨⟨⟩, hheader, h⟩ := except_bind_ok.mp h
      dsimp only at h
      split at h
      · rename_i hpartial
        have hresult := Except.ok.inj h
        have hempty : file.length = 0 := congrArg ReplayResult.ignoredTailBytes hresult
        unfold headerLen at hlong
        omega
      · rename_i hfull
        obtain ⟨⟨⟩, hfollows, h⟩ := except_bind_ok.mp h
        split at h
        · cases h
        · rename_i hchecksum
          obtain ⟨entry, hentry, h⟩ := except_bind_ok.mp h
          obtain ⟨⟨later, tail⟩, hlater, h⟩ := except_bind_ok.mp h
          cases h
          have hsequence := (decodePayload_ok hentry).2
          have hheaderLen : (file.take headerLen).length = headerLen := by
            rw [List.length_take]
            omega
          have hpayload : headerPayloadLen (file.take headerLen) =
              ((file.drop headerLen).take (headerPayloadLen (file.take headerLen))).length := by
            rw [List.length_take, List.length_drop]
            omega
          have hsplit : file = file.take headerLen ++
              ((file.drop headerLen).take (headerPayloadLen (file.take headerLen)) ++
                file.drop (headerLen + headerPayloadLen (file.take headerLen))) := by
            rw [← List.drop_drop, List.take_append_drop, List.take_append_drop]
          have hshorter : (file.drop (headerLen + headerPayloadLen (file.take headerLen))).length <
              length := by
            rw [List.length_drop]
            unfold headerLen at hlong ⊢
            omega
          have hnext := ih _ hshorter hlater rfl
          conv_lhs => rw [hsplit]
          rw [List.append_assoc, List.append_assoc,
            decodeFrames_header hheaderLen hheader hpayload, hfollows, except_ok_bind,
            if_neg hchecksum, hentry, except_ok_bind, hnext, lastSequenceOf, hsequence]
          cases decodeFrames (lastSequenceOf (some (headerSequence (file.take headerLen))) later)
            rest <;> rfl

/-! ### One append -/

/-- An append succeeds, is rejected before the write, or fails after a prefix
of its bytes reached the file. -/
theorem appendBatch_cases (wal : Wal) (batch : List WalMutation) (outcome : AppendOutcome) :
    (Increasing wal.lastSequence batch ∧ ∃ encoded, encodeFrames batch = .ok encoded ∧
        (outcome = .writeFails 0 → batch = []) ∧
        wal.appendBatch batch outcome = (⟨wal.file ++ encoded, wal.syncPolicy,
          lastSequenceOf wal.lastSequence batch⟩, .ok ())) ∨
      (∃ error, encodeBatch wal.lastSequence batch = .error error ∧
        wal.appendBatch batch outcome = (wal, .error error)) ∨
      (Increasing wal.lastSequence batch ∧ ∃ encoded written,
        encodeFrames batch = .ok encoded ∧ written <+: encoded ∧
          (outcome = .writeFails 0 → written = []) ∧ batch ≠ [] ∧
          wal.appendBatch batch outcome = (wal.writeFile written, .error .io)) := by
  cases batch with
  | nil =>
    refine Or.inl ⟨trivial, [], rfl, fun _ => rfl, ?_⟩
    simp only [appendBatch, List.isEmpty_nil, if_true, lastSequenceOf, List.append_nil]
  | cons mutation rest =>
    have hcons : (mutation :: rest).isEmpty = false := rfl
    cases hbatch : encodeBatch wal.lastSequence (mutation :: rest) with
    | error error =>
      refine Or.inr (Or.inl ⟨error, rfl, ?_⟩)
      simp only [appendBatch, hcons, hbatch]
      rfl
    | ok pair =>
      obtain ⟨encoded, last⟩ := pair
      obtain ⟨hincreasing, hencoded, rfl⟩ := encodeBatch_ok_iff.mp hbatch
      have happend : wal.appendBatch (mutation :: rest) outcome =
          wal.writeBatch encoded (lastSequenceOf wal.lastSequence (mutation :: rest)) outcome := by
        simp only [appendBatch, hcons, hbatch]
        rfl
      rw [happend]
      cases outcome with
      | done => exact Or.inl ⟨hincreasing, encoded, hencoded, nofun, rfl⟩
      | writeFails written =>
        refine Or.inr (Or.inr ⟨hincreasing, encoded, encoded.take written, hencoded,
          List.take_prefix .., ?_, List.cons_ne_nil _ _, rfl⟩)
        intro hzero
        cases hzero
        exact List.take_zero
      | flushFails =>
        exact Or.inr (Or.inr ⟨hincreasing, encoded, encoded, hencoded, List.prefix_refl _,
          nofun, List.cons_ne_nil _ _, rfl⟩)
      | syncFails =>
        by_cases hdurable : wal.syncPolicy = .durable
        · refine Or.inr (Or.inr ⟨hincreasing, encoded, encoded, hencoded, List.prefix_refl _,
            nofun, List.cons_ne_nil _ _, ?_⟩)
          simp only [writeBatch, if_pos hdurable]
        · refine Or.inl ⟨hincreasing, encoded, hencoded, nofun, ?_⟩
          simp only [writeBatch, if_neg hdurable]
          rfl

theorem appendBatch_done_iff {wal next : Wal} {batch : List WalMutation} :
    wal.appendBatch batch .done = (next, .ok ()) ↔
      Increasing wal.lastSequence batch ∧ ∃ encoded, encodeFrames batch = .ok encoded ∧
        next = ⟨wal.file ++ encoded, wal.syncPolicy, lastSequenceOf wal.lastSequence batch⟩ := by
  constructor
  · intro h
    rcases appendBatch_cases wal batch .done with ⟨hincreasing, encoded, hencoded, -, hok⟩ |
      ⟨error, -, herror⟩ | ⟨-, encoded, written, -, -, -, -, herror⟩
    · rw [h] at hok
      exact ⟨hincreasing, encoded, hencoded, congrArg Prod.fst hok⟩
    · rw [h] at herror
      cases congrArg Prod.snd herror
    · rw [h] at herror
      cases congrArg Prod.snd herror
  · rintro ⟨hincreasing, encoded, hencoded, rfl⟩
    cases batch with
    | nil =>
      cases hencoded
      simp only [appendBatch, List.isEmpty_nil, if_true, lastSequenceOf, List.append_nil]
    | cons mutation rest =>
      have hcons : (mutation :: rest).isEmpty = false := rfl
      have hbatch := encodeBatch_ok_iff.mpr ⟨hincreasing, hencoded, rfl⟩
      simp only [appendBatch, hcons, hbatch, writeBatch, writeFile]
      rfl

/-! ### Prefixes of a log -/

/-- A prefix of a log ends between two frames or inside one. -/
theorem prefix_of_frames {mutations : List WalMutation} {encoded file : Bytes}
    (hencoded : encodeFrames mutations = .ok encoded) (hfile : file <+: encoded) :
    (∃ complete rest, mutations = complete ++ rest ∧ encodeFrames complete = .ok file) ∨
      ∃ complete mutation rest whole frame torn,
        mutations = complete ++ mutation :: rest ∧ encodeFrames complete = .ok whole ∧
          encodeFrame mutation = .ok frame ∧ file = whole ++ torn ∧ torn <+: frame ∧
            torn ≠ [] ∧ torn.length < frame.length := by
  induction mutations generalizing encoded file with
  | nil =>
    cases hencoded
    exact Or.inl ⟨[], [], rfl, by rw [List.prefix_nil.mp hfile]; rfl⟩
  | cons mutation tail ih =>
    obtain ⟨frame, hframe, h⟩ := except_bind_ok.mp hencoded
    obtain ⟨body, hbody, h⟩ := except_bind_ok.mp h
    cases h
    by_cases hshort : file.length < frame.length
    · have htorn : file <+: frame :=
        List.prefix_of_prefix_length_le hfile (List.prefix_append ..) hshort.le
      by_cases hempty : file = []
      · exact Or.inl ⟨[], mutation :: tail, rfl, by rw [hempty]; rfl⟩
      · exact Or.inr ⟨[], mutation, tail, [], frame, file, rfl, rfl, hframe, rfl, htorn, hempty,
          hshort⟩
    · have hwhole : frame <+: file :=
        List.prefix_of_prefix_length_le (List.prefix_append ..) hfile (not_lt.mp hshort)
      obtain ⟨remaining, rfl⟩ := hwhole
      have hremaining : remaining <+: body := (List.prefix_append_right_inj frame).mp hfile
      rcases ih hbody hremaining with ⟨complete, rest, hsplit, hcomplete⟩ |
          ⟨complete, next, rest, whole, nextFrame, torn, hsplit, hcomplete, hnext, hbytes, htorn⟩
      · refine Or.inl ⟨mutation :: complete, rest, by rw [hsplit]; rfl, ?_⟩
        exact encodeFrames_cons hframe hcomplete
      · refine Or.inr ⟨mutation :: complete, next, rest, frame ++ whole, nextFrame, torn,
          by rw [hsplit]; rfl, encodeFrames_cons hframe hcomplete, hnext, ?_, htorn⟩
        rw [hbytes, List.append_assoc]

/-- Replay of a prefix of a log returns a prefix of its mutations. -/
theorem decodeFrames_prefix {mutations : List WalMutation} {encoded file : Bytes}
    {previous : Option SequenceNumber} (hencoded : encodeFrames mutations = .ok encoded)
    (hincreasing : Increasing previous mutations) (hfile : file <+: encoded) :
    ∃ result, decodeFrames previous file = .ok result ∧ result.entries <+: mutations := by
  rcases prefix_of_frames hencoded hfile with ⟨complete, rest, rfl, hcomplete⟩ |
    ⟨complete, mutation, rest, whole, frame, torn, rfl, hcomplete, hframe, rfl, htorn, -,
      hproper⟩
  · have hdecode := decodeFrames_frames hcomplete ((increasing_append ..).mp hincreasing).1 []
    rw [List.append_nil, decodeFrames_nil] at hdecode
    exact ⟨_, hdecode, by simp [ReplayResult.prepend]⟩
  · have hdecode := decodeFrames_frames hcomplete ((increasing_append ..).mp hincreasing).1 torn
    rw [decodeFrames_torn hframe htorn hproper] at hdecode
    exact ⟨_, hdecode, by simp [ReplayResult.prepend]⟩

end Ketebe.Wal
