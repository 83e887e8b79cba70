import Ketebe.KafkaFlush

/-!
Flushing under the dead-letter policy when the collection, the producer and the broker
answer well. The flush drains the buffer unless a message has no payload: payloads are
extracted for the whole buffer before any message is decoded.
-/
namespace Ketebe.Kafka

open Lib.Attempts Lib.ByteCodec

variable {W M : Type} {codec : EnvelopeCodec W M} {environment : Environment M}

/-- Every write, publication and commit succeeds. -/
structure Environment.Obliging (environment : Environment M) : Prop where
  apply : ∀ journal message mutation, environment.apply journal message mutation = .ok ()
  publish : ∀ journal envelope, environment.publish journal envelope = .ok ()
  commit : ∀ journal partition offset, environment.commit journal partition offset = .ok ()

def decodeOwned (codec : EnvelopeCodec W M) (owned : OwnedMessage) :
    Except KafkaIngestionError M := do
  let message ← ownedMessage owned
  codec.decodeEnvelope message.payload

/-- What became of a message. -/
inductive Outcome (M : Type) where
  | applied (offset : Int64) (mutation : M)
  | published (topic : String) (offset : Int64) (errorClass : String)

/-- A message that can be decoded is to be applied, another one to be published. -/
def intended (codec : EnvelopeCodec W M) (topic : String) (owned : OwnedMessage) : Outcome M :=
  match decodeOwned codec owned with
  | .ok mutation => .applied owned.offset mutation
  | .error error => .published topic owned.offset (poisonErrorClass error)

/-- What the attempts of a journal achieved, in order. -/
def outcomes (journal : Journal (Effect M)) : List (Outcome M) :=
  journal.filterMap fun attempt =>
    match attempt with
    | ⟨.apply message mutation, true⟩ => some (.applied message.offset mutation)
    | ⟨.publish topic envelope, true⟩ =>
        some (.published topic envelope.sourceOffset envelope.errorClass)
    | _ => none

@[simp] theorem outcomes_nil : outcomes ([] : Journal (Effect M)) = [] := rfl

@[simp] theorem outcomes_append (first second : Journal (Effect M)) :
    outcomes (first ++ second) = outcomes first ++ outcomes second := List.filterMap_append

/-- The flush ends well with an empty buffer, and every message was applied or published
exactly once, in the order of the buffer. -/
structure Drained (codec : EnvelopeCodec W M) (topic : String) (journal : Journal (Effect M))
    (buffer : List OwnedMessage) (flushed : Flushed M) : Prop where
  result : flushed.result = .ok ()
  remaining : flushed.buffer = []
  achieved : ∃ fresh, flushed.journal = journal ++ fresh ∧
    outcomes fresh = buffer.map (intended codec topic)

/-- What one part of a buffer amounts to. -/
def Handles (codec : EnvelopeCodec W M) (topic : String) (part : List OwnedMessage)
    (fresh : Journal (Effect M)) (result : Except KafkaIngestionError Unit) : Prop :=
  result = .ok () ∧ outcomes fresh = part.map (intended codec topic)

theorem drained_nil (topic : String) (journal : Journal (Effect M)) :
    Drained codec topic journal [] ⟨journal, [], .ok ()⟩ :=
  ⟨rfl, rfl, [], (List.append_nil journal).symm, rfl⟩

/-- One part after the other. -/
theorem Handles.advance {topic : String} {part rest buffer : List OwnedMessage}
    {program : Ingestion M Unit} {next : Journal (Effect M) → Flushed M}
    (hprogram : Records program (Handles codec topic part)) (hbuffer : buffer = part ++ rest)
    (hnext : ∀ journal, Drained codec topic journal rest (next journal))
    (journal : Journal (Effect M)) :
    Drained codec topic journal buffer
      (match program journal with
        | (.error error, journal) => (⟨journal, buffer, .error error⟩ : Flushed M)
        | (.ok (), journal) => next journal) := by
  obtain ⟨first, hjournal, hok, hfirst⟩ := hprogram journal
  rcases hcase : program journal with ⟨error | _, after⟩
  · rw [hcase] at hok
    cases hok
  · rw [hcase] at hjournal
    obtain ⟨hresult, hremaining, second, hsecond, houtcomes⟩ := hnext after
    have hjournal : after = journal ++ first := hjournal
    refine ⟨hresult, hremaining, first ++ second, ?_, ?_⟩
    · rw [hsecond, hjournal, List.append_assoc]
    · rw [outcomes_append, hfirst, houtcomes, hbuffer, List.map_append]

/-! ### Parts of a buffer -/

theorem checkOffsets_ok {partition : Int32} {previous : Option Int64}
    {messages : List KafkaIngestionMessage}
    (hpartition : ∀ message ∈ messages, message.partition = partition)
    (hprevious : ∀ offset ∈ previous, ∀ message ∈ messages, offset < message.offset)
    (hincreasing : messages.Pairwise fun first second => first.offset < second.offset) :
    checkOffsets partition previous messages = .ok () := by
  induction messages generalizing previous with
  | nil => rfl
  | cons message rest ih =>
    obtain ⟨hfirst, hrest⟩ := List.pairwise_cons.mp hincreasing
    have hsame := hpartition message (List.mem_cons_self ..)
    have hfollowing : checkOffsets partition (some message.offset) rest = .ok () := by
      refine ih (fun other hother => hpartition other (List.mem_cons_of_mem _ hother)) ?_ hrest
      intro offset hoffset other hother
      obtain rfl := Option.some.inj hoffset
      exact hfirst other hother
    cases previous with
    | none => rw [checkOffsets, if_neg (not_not.mpr hsame), hfollowing]
    | some offset =>
      have hlater := hprevious offset rfl message (List.mem_cons_self ..)
      rw [checkOffsets, if_neg (not_not.mpr hsame)]
      exact (if_neg (Int64.not_le.mpr hlater)).trans hfollowing

theorem validatePartitionBatch_ok {partition : Int32} {part : List OwnedMessage}
    {messages : List KafkaIngestionMessage} (hordered : Ordered partition part)
    (hpart : part ≠ []) (howned : ownedMessages part = .ok messages) :
    validatePartitionBatch messages = .ok () := by
  have hincreasing : (messages.map KafkaIngestionMessage.offset).Pairwise (· < ·) := by
    rw [offsets_of_owned howned]
    exact List.pairwise_map.mpr hordered.increasing
  have hpartition (message : KafkaIngestionMessage) (hmessage : message ∈ messages) :
      message.partition = partition := by
    obtain ⟨owned, hmem, hok⟩ := (mem_of_except_mapM howned).1 message hmessage
    exact (ownedMessage_ok hok).1.trans (hordered.partition owned hmem)
  cases messages with
  | nil =>
    have hlength := (except_mapM_ok.mp howned).length_eq
    exact absurd (List.length_eq_zero_iff.mp hlength) hpart
  | cons first rest =>
    rw [validatePartitionBatch, hpartition first (List.mem_cons_self ..)]
    exact checkOffsets_ok hpartition (fun _ h => by cases h) (List.pairwise_map.mp hincreasing)

theorem decodeOwned_eq {owned : OwnedMessage} {message : KafkaIngestionMessage}
    (h : ownedMessage owned = .ok message) :
    decodeOwned codec owned = codec.decodeEnvelope message.payload := by
  rw [decodeOwned, h]
  rfl

theorem intended_of_decoded {part : List OwnedMessage} {messages : List KafkaIngestionMessage}
    {decoded : List M} (topic : String) (howned : ownedMessages part = .ok messages)
    (hdecoded : messages.mapM (fun message => codec.decodeEnvelope message.payload) = .ok decoded) :
    (messages.zip decoded).map (fun pair => Outcome.applied pair.1.offset pair.2) =
      part.map (intended codec topic) := by
  have hmessages := except_mapM_ok.mp howned
  have hmutations := except_mapM_ok.mp hdecoded
  clear howned hdecoded
  induction hmessages generalizing decoded with
  | nil => rfl
  | @cons owned message part messages hmessage _ ih =>
    obtain ⟨mutation, later, hmutation, hlater, rfl⟩ := List.forall₂_cons_left_iff.mp hmutations
    rw [List.zip_cons_cons, List.map_cons, List.map_cons, ih hlater, intended,
      decodeOwned_eq hmessage, hmutation, (ownedMessage_ok hmessage).2]

section Parts

variable (hobliging : environment.Obliging)
include hobliging

theorem applyMessage_obliging (message : KafkaIngestionMessage) (mutation : M) :
    Records (applyMessage environment message mutation) fun fresh result =>
      result = .ok () ∧ fresh = [⟨.apply message mutation, true⟩] := by
  refine Records.attempt ⟨rfl, rfl⟩ fun journal error herror => ?_
  rw [hobliging.apply] at herror
  cases herror

theorem commitAck_obliging (ack : KafkaBatchAck) :
    Records (commitAck environment ack) fun fresh result =>
      result = .ok () ∧ outcomes fresh = [] := by
  refine Records.attempt ⟨rfl, rfl⟩ fun journal error herror => ?_
  rw [hobliging.commit] at herror
  cases herror

theorem publishDlq_obliging (topic : String) (envelope : KafkaDlqEnvelope) :
    Records (publishDlq environment topic envelope) fun fresh result =>
      result = .ok () ∧
        outcomes fresh = [.published topic envelope.sourceOffset envelope.errorClass] := by
  refine Records.attempt ⟨rfl, rfl⟩ fun journal error herror => ?_
  rw [hobliging.publish] at herror
  cases herror

theorem applyAll_obliging (pairs : List (KafkaIngestionMessage × M)) :
    Records (applyAll environment pairs) fun fresh result =>
      result = .ok () ∧
        outcomes fresh = pairs.map fun pair => .applied pair.1.offset pair.2 := by
  induction pairs with
  | nil => exact Records.pure ⟨rfl, rfl⟩
  | cons pair rest ih =>
    obtain ⟨message, mutation⟩ := pair
    refine (applyMessage_obliging hobliging message mutation).bind (fun first _ hfirst => ?_)
      fun first error hfirst => nomatch hfirst.1
    obtain ⟨-, rfl⟩ := hfirst
    refine ih.mono fun second result hrest => ⟨hrest.1, ?_⟩
    rw [outcomes_append, hrest.2]
    rfl

theorem applyAndCommit_obliging {partition : Int32} {part : List OwnedMessage}
    {messages : List KafkaIngestionMessage} {decoded : List M} (topic : String)
    (hordered : Ordered partition part) (hpart : part ≠ [])
    (howned : ownedMessages part = .ok messages)
    (hdecoded : messages.mapM (fun message => codec.decodeEnvelope message.payload) = .ok decoded) :
    Records (applyAndCommit codec environment messages) (Handles codec topic part) := by
  have hbatch : Records (applyPartitionBatch codec environment messages) fun first result =>
      result = .ok (batchAck messages) ∧ outcomes first = part.map (intended codec topic) := by
    rw [applyPartitionBatch, validatePartitionBatch_ok hordered hpart howned, hdecoded]
    refine (applyAll_obliging hobliging (messages.zip decoded)).bind (fun first _ hfirst => ?_)
      fun first error hfirst => nomatch hfirst.1
    refine Records.pure ⟨rfl, ?_⟩
    rw [List.append_nil, hfirst.2, intended_of_decoded topic howned hdecoded]
  refine hbatch.bind (fun first ack hfirst => ?_) fun first error hfirst => nomatch hfirst.1
  refine (commitAck_obliging hobliging ack).mono fun second result hsecond => ⟨hsecond.1, ?_⟩
  rw [outcomes_append, hfirst.2, hsecond.2, List.append_nil]

theorem publishAndCommit_obliging {config : KafkaIngestionConfig} {topic : String}
    {partition : Int32} {owned : OwnedMessage} {message : KafkaIngestionMessage}
    {error : KafkaIngestionError} (howned : ownedMessage owned = .ok message)
    (herror : codec.decodeEnvelope message.payload = .error error) :
    Records (publishAndCommit environment config topic partition message error)
      (Handles codec topic [owned]) := by
  refine (publishDlq_obliging hobliging topic _).bind (fun first _ hfirst => ?_)
    fun first failure hfirst => nomatch hfirst.1
  refine (commitAck_obliging hobliging _).mono fun second result hsecond => ⟨hsecond.1, ?_⟩
  rw [outcomes_append, hfirst.2, hsecond.2, List.map_singleton, intended, decodeOwned_eq howned,
    herror, ← (ownedMessage_ok howned).2]
  rfl

end Parts

/-! ### The whole buffer -/

/-- Everything before the first message that cannot be decoded is decoded. -/
theorem firstPoison_spec (codec : EnvelopeCodec W M) (messages : List KafkaIngestionMessage) :
    match firstPoison codec messages with
    | none => ∃ decoded,
        messages.mapM (fun message => codec.decodeEnvelope message.payload) = .ok decoded
    | some (index, error) =>
        (∃ decoded, (messages.take index).mapM
          (fun message => codec.decodeEnvelope message.payload) = .ok decoded) ∧
        ∃ message ∈ messages[index]?, codec.decodeEnvelope message.payload = .error error := by
  induction messages with
  | nil => exact ⟨[], rfl⟩
  | cons message rest ih =>
    rw [firstPoison]
    cases hdecode : codec.decodeEnvelope message.payload with
    | error error => exact ⟨⟨[], rfl⟩, message, rfl, hdecode⟩
    | ok mutation =>
      cases hrest : firstPoison codec rest with
      | none =>
        rw [hrest] at ih
        obtain ⟨decoded, hdecoded⟩ := ih
        refine ⟨mutation :: decoded, ?_⟩
        rw [List.mapM_cons, hdecode, hdecoded]
        rfl
      | some poison =>
        obtain ⟨index, error⟩ := poison
        rw [hrest] at ih
        obtain ⟨⟨decoded, hdecoded⟩, hpoison⟩ := ih
        refine ⟨⟨mutation :: decoded, ?_⟩, hpoison⟩
        rw [List.take_succ_cons, List.mapM_cons, hdecode, hdecoded]
        rfl

theorem ownedMessages_ok {buffer : List OwnedMessage}
    (h : ∀ owned ∈ buffer, owned.payload ≠ none) :
    ∃ messages, ownedMessages buffer = .ok messages := by
  induction buffer with
  | nil => exact ⟨[], rfl⟩
  | cons owned rest ih =>
    obtain ⟨messages, hmessages⟩ := ih fun other hother => h other (List.mem_cons_of_mem _ hother)
    obtain ⟨payload, hpayload⟩ :=
      Option.ne_none_iff_exists'.mp (h owned (List.mem_cons_self ..))
    refine ⟨⟨owned.partition, owned.offset, payload⟩ :: messages, ?_⟩
    have hmessage : ownedMessage owned = .ok ⟨owned.partition, owned.offset, payload⟩ := by
      rw [ownedMessage, hpayload]
    exact except_mapM_ok.mpr (.cons hmessage (except_mapM_ok.mp hmessages))

theorem payload_of_ownedMessages {buffer : List OwnedMessage}
    {messages : List KafkaIngestionMessage} (h : ownedMessages buffer = .ok messages) :
    ∀ owned ∈ buffer, owned.payload ≠ none := by
  intro owned howned hnone
  obtain ⟨message, -, hmessage⟩ := (mem_of_except_mapM h).2 owned howned
  rw [ownedMessage, hnone] at hmessage
  cases hmessage

theorem flushPartitionWithDlq_drained (hobliging : environment.Obliging)
    {config : KafkaIngestionConfig} {topic : String} {partition : Int32}
    {buffer : List OwnedMessage} (hordered : Ordered partition buffer)
    (hpayload : ∀ owned ∈ buffer, owned.payload ≠ none) (journal : Journal (Effect M)) :
    Drained codec topic journal buffer
      (flushPartitionWithDlq codec environment config topic partition journal buffer) := by
  -- The buffer gets shorter with every part.
  induction hlength : buffer.length using Nat.strong_induction_on generalizing buffer journal with
  | h length ih =>
    subst hlength
    rw [flushPartitionWithDlq]
    split
    · rename_i hempty
      subst hempty
      exact drained_nil topic journal
    · rename_i hbuffer
      have hrest (count : ℕ) (hpos : 0 < count) (after : Journal (Effect M)) :
          Drained codec topic after (buffer.drop count)
            (flushPartitionWithDlq codec environment config topic partition after
              (buffer.drop count)) := by
        have hlt : (buffer.drop count).length < buffer.length := by
          have hlength := List.length_pos_of_ne_nil hbuffer
          rw [List.length_drop]
          omega
        have hsplit : Ordered partition (buffer.take count ++ buffer.drop count) := by
          rwa [List.take_append_drop]
        exact ih _ hlt hsplit.append_right
          (fun owned howned => hpayload owned (List.mem_of_mem_drop howned)) after rfl
      obtain ⟨messages, hmessages⟩ := ownedMessages_ok hpayload
      have hspec := firstPoison_spec codec messages
      rw [hmessages]
      cases hpoison : firstPoison codec messages with
      | none =>
        rw [hpoison] at hspec
        obtain ⟨decoded, hdecoded⟩ := hspec
        simp only [hpoison]
        exact Handles.advance
          (applyAndCommit_obliging hobliging topic hordered hbuffer hmessages hdecoded)
          (List.append_nil buffer).symm (drained_nil topic) journal
      | some poison =>
        obtain ⟨index, error⟩ := poison
        rw [hpoison] at hspec
        obtain ⟨⟨decoded, hdecoded⟩, message, hmessage, herror⟩ := hspec
        cases index with
        | succ index =>
          have hsplit := List.take_append_drop (index + 1) buffer
          have hordered' : Ordered partition
              (buffer.take (index + 1) ++ buffer.drop (index + 1)) := by rwa [hsplit]
          simp only [hpoison]
          exact Handles.advance
            (applyAndCommit_obliging hobliging topic hordered'.append_left (by simp [hbuffer])
              (ownedMessages_take hmessages (index + 1)) hdecoded)
            hsplit.symm (hrest (index + 1) (by omega)) journal
        | zero =>
          obtain ⟨first, others, rfl⟩ := List.exists_cons_of_ne_nil hbuffer
          obtain ⟨head, following, hhead, -, rfl⟩ :=
            List.forall₂_cons_left_iff.mp (except_mapM_ok.mp hmessages)
          obtain rfl := Option.some.inj hmessage
          simp only [hpoison]
          exact Handles.advance (publishAndCommit_obliging hobliging hhead herror) rfl
            (hrest 1 (by omega)) journal

theorem flushPartitionWithDlq_error {config : KafkaIngestionConfig} {topic : String}
    {partition : Int32} {buffer : List OwnedMessage} {error : KafkaIngestionError}
    (hmessages : ownedMessages buffer = .error error) (journal : Journal (Effect M)) :
    flushPartitionWithDlq codec environment config topic partition journal buffer =
      ⟨journal, buffer, .error error⟩ := by
  have hbuffer : buffer ≠ [] := by
    rintro rfl
    cases hmessages
  rw [flushPartitionWithDlq, dif_neg hbuffer, hmessages]

/-- The flush drains the buffer exactly when every message has a payload. -/
theorem flushPartition_drained_iff (codec : EnvelopeCodec W M) (environment : Environment M)
    (config : KafkaIngestionConfig) (topic : String) (partition : Int32)
    (journal : Journal (Effect M)) (buffer : List OwnedMessage)
    (hpolicy : config.poisonPolicy = .dlq topic) (hordered : Ordered partition buffer)
    (hobliging : environment.Obliging) :
    Drained codec topic journal buffer
        (flushPartition codec environment config true partition journal buffer) ↔
      ∀ owned ∈ buffer, owned.payload ≠ none := by
  rw [flushPartition, hpolicy]
  split
  · rename_i hempty
    subst hempty
    exact ⟨fun _ owned howned => absurd howned List.not_mem_nil, fun _ => drained_nil topic journal⟩
  · constructor
    · intro h
      cases hmessages : ownedMessages buffer with
      | error error =>
        have hresult := h.result
        simp only [↓reduceIte, flushPartitionWithDlq_error hmessages] at hresult
        cases hresult
      | ok messages => exact payload_of_ownedMessages hmessages
    · intro hpayload
      exact flushPartitionWithDlq_drained hobliging hordered hpayload journal

theorem obliging_reachable : reachable.Obliging :=
  ⟨fun _ _ _ => rfl, fun _ _ => rfl, fun _ _ _ => rfl⟩

theorem flushPartition_drained_poisoned : Drained emptyIsInvalid "records.dlq" [] poisonedBuffer
    (flushPartition emptyIsInvalid reachable dlqConfig true 0 [] poisonedBuffer) ↔
      ∀ owned ∈ poisonedBuffer, owned.payload ≠ none :=
  flushPartition_drained_iff emptyIsInvalid reachable dlqConfig "records.dlq" 0 [] poisonedBuffer
    rfl ordered_poisonedBuffer obliging_reachable

/-- A message that can be decoded, and one without a payload behind it. -/
def bufferWithoutPayload : List OwnedMessage := [⟨0, 3, some [123]⟩, ⟨0, 5, none⟩]

/-- Nothing is applied or published, and the whole buffer stays. -/
theorem not_flushPartition_drained : ¬Drained emptyIsInvalid "records.dlq" []
    bufferWithoutPayload
    (flushPartition emptyIsInvalid reachable dlqConfig true 0 [] bufferWithoutPayload) := by
  have hflushed : flushPartition emptyIsInvalid reachable dlqConfig true 0 [] bufferWithoutPayload =
      ⟨[], bufferWithoutPayload, .error .missingPayload⟩ :=
    flushPartitionWithDlq_error (rfl : ownedMessages _ = .error .missingPayload) []
  intro h
  rw [hflushed] at h
  cases h.result

end Ketebe.Kafka
