import Ketebe.KafkaIngestion
import Mathlib.Data.List.Forall2
import Mathlib.Tactic.Cases

/-!
Flushing a buffer of one partition. Whatever fails, an offset is committed only
behind messages that were applied or published, and the buffer keeps the messages
that no commit covers.
-/
namespace Ketebe.Kafka

open Lib.Attempts Lib.ByteCodec

variable {W M : Type} {codec : EnvelopeCodec W M} {environment : Environment M}

/-- The offsets of the messages that were handed to the collection, in order. -/
def appliedOffsets (journal : Journal (Effect M)) : List Int64 :=
  journal.filterMap fun attempt =>
    match attempt.effect with
    | .apply message _ => some message.offset
    | _ => none

/-- The message was applied, or its envelope was acknowledged. -/
def Handled (codec : EnvelopeCodec W M) (message : KafkaIngestionMessage)
    (journal : Journal (Effect M)) : Prop :=
  (∃ mutation, codec.decodeEnvelope message.payload = .ok mutation ∧
    ⟨.apply message mutation, true⟩ ∈ journal) ∨
  ∃ topic envelope, envelope.sourceOffset = message.offset ∧
    envelope.payload = message.payload ∧ ⟨.publish topic envelope, true⟩ ∈ journal

def NoCommit (journal : Journal (Effect M)) : Prop :=
  ∀ partition offset succeeded, ⟨.commit partition offset, succeeded⟩ ∉ journal

theorem Handled.append {message : KafkaIngestionMessage} {journal : Journal (Effect M)}
    (h : Handled codec message journal) (later : Journal (Effect M)) :
    Handled codec message (journal ++ later) := by
  rcases h with ⟨mutation, hdecode, hmem⟩ | ⟨topic, envelope, hoffset, hpayload, hmem⟩
  · exact Or.inl ⟨mutation, hdecode, List.mem_append_left _ hmem⟩
  · exact Or.inr ⟨topic, envelope, hoffset, hpayload, List.mem_append_left _ hmem⟩

theorem Handled.prepend {message : KafkaIngestionMessage} {journal : Journal (Effect M)}
    (h : Handled codec message journal) (earlier : Journal (Effect M)) :
    Handled codec message (earlier ++ journal) := by
  rcases h with ⟨mutation, hdecode, hmem⟩ | ⟨topic, envelope, hoffset, hpayload, hmem⟩
  · exact Or.inl ⟨mutation, hdecode, List.mem_append_right _ hmem⟩
  · exact Or.inr ⟨topic, envelope, hoffset, hpayload, List.mem_append_right _ hmem⟩

theorem appliedOffsets_append (first second : Journal (Effect M)) :
    appliedOffsets (first ++ second) = appliedOffsets first ++ appliedOffsets second :=
  List.filterMap_append

/-! ### One part of a buffer -/

/-- What the attempts for a part of a buffer amount to: they stop before the
commit, or handle all of the part and then commit. -/
inductive Advances (codec : EnvelopeCodec W M) (part : List KafkaIngestionMessage)
    (partition : Int32) (offset : Int64) :
    Journal (Effect M) → Except KafkaIngestionError Unit → Prop where
  | stops {work : Journal (Effect M)} {error : KafkaIngestionError} (uncommitted : NoCommit work)
      (applied : (appliedOffsets work).Sublist (part.map KafkaIngestionMessage.offset)) :
      Advances codec part partition offset work (.error error)
  | commitFails {work : Journal (Effect M)} {error : KafkaIngestionError}
      (uncommitted : NoCommit work)
      (applied : (appliedOffsets work).Sublist (part.map KafkaIngestionMessage.offset))
      (handled : ∀ message ∈ part, Handled codec message work) :
      Advances codec part partition offset (work ++ [⟨.commit partition offset, false⟩])
        (.error error)
  | commits {work : Journal (Effect M)} (uncommitted : NoCommit work)
      (applied : (appliedOffsets work).Sublist (part.map KafkaIngestionMessage.offset))
      (handled : ∀ message ∈ part, Handled codec message work) :
      Advances codec part partition offset (work ++ [⟨.commit partition offset, true⟩]) (.ok ())

theorem commitAck_advances {part : List KafkaIngestionMessage} {ack : KafkaBatchAck}
    {work : Journal (Effect M)} (huncommitted : NoCommit work)
    (happlied : (appliedOffsets work).Sublist (part.map KafkaIngestionMessage.offset))
    (hhandled : ∀ message ∈ part, Handled codec message work) :
    Records (commitAck environment ack) fun second result =>
      Advances codec part ack.partition ack.nextOffset (work ++ second) result :=
  Records.attempt (.commits huncommitted happlied hhandled) fun _ _ _ =>
    .commitFails huncommitted happlied hhandled

theorem publishAndCommit_advances {config : KafkaIngestionConfig} {topic : String}
    {partition : Int32} {message : KafkaIngestionMessage} {error : KafkaIngestionError} :
    Records (publishAndCommit environment config topic partition message error)
      (Advances codec [message] partition (message.offset + 1)) := by
  have hpublish : Records (publishDlq environment topic
      (dlqEnvelope config partition message error)) fun first result =>
        NoCommit first ∧ appliedOffsets first = [] ∧
          (result = .ok () → Handled codec message first) := by
    refine Records.attempt ⟨by simp [NoCommit], rfl, fun _ => Or.inr ?_⟩ fun _ _ _ =>
      ⟨by simp [NoCommit], rfl, nofun⟩
    exact ⟨topic, _, rfl, rfl, List.mem_singleton_self _⟩
  refine hpublish.bind (fun first _ hfirst => ?_) fun first failure hfirst => ?_
  · obtain ⟨huncommitted, happlied, hhandled⟩ := hfirst
    refine commitAck_advances huncommitted (happlied ▸ List.nil_sublist _) fun other hother => ?_
    rw [List.mem_singleton.mp hother]
    exact hhandled rfl
  · exact .stops hfirst.1 (hfirst.2.1 ▸ List.nil_sublist _)

/-- Messages are applied one by one, until one fails. -/
theorem applyAll_records (environment : Environment M) (pairs : List (KafkaIngestionMessage × M)) :
    Records (applyAll environment pairs) fun fresh result =>
      NoCommit fresh ∧
        (appliedOffsets fresh).Sublist (pairs.map fun pair => pair.1.offset) ∧
        (result = .ok () → ∀ pair ∈ pairs, ⟨.apply pair.1 pair.2, true⟩ ∈ fresh) := by
  induction pairs with
  | nil => exact Records.pure ⟨by simp [NoCommit], List.nil_sublist _, fun _ => nofun⟩
  | cons pair rest ih =>
    obtain ⟨message, mutation⟩ := pair
    have hfirst : Records (applyMessage environment message mutation) fun first result =>
        ∃ succeeded, first = [⟨.apply message mutation, succeeded⟩] ∧
          (result = .ok () → succeeded = true) :=
      Records.attempt ⟨true, rfl, fun _ => rfl⟩ fun _ _ _ => ⟨false, rfl, nofun⟩
    refine hfirst.bind (fun first _ hdone => ?_) fun first error hdone => ?_
    · obtain ⟨succeeded, rfl, hsucceeded⟩ := hdone
      obtain rfl := hsucceeded rfl
      refine ih.mono fun second result hrest => ?_
      obtain ⟨huncommitted, happlied, hall⟩ := hrest
      refine ⟨?_, List.cons_sublist_cons.mpr happlied, fun hok other hother => ?_⟩
      · intro partition offset succeeded hmem
        rcases List.mem_cons.mp hmem with heq | hlater
        · cases congrArg Attempt.effect heq
        · exact huncommitted partition offset succeeded hlater
      · rcases List.mem_cons.mp hother with rfl | hlater
        · exact List.mem_cons_self ..
        · exact List.mem_cons_of_mem _ (hall hok other hlater)
    · obtain ⟨succeeded, rfl, -⟩ := hdone
      refine ⟨by simp [NoCommit], ?_, nofun⟩
      exact List.cons_sublist_cons.mpr (List.nil_sublist _)

theorem applyAndCommit_advances (codec : EnvelopeCodec W M) (environment : Environment M)
    (messages : List KafkaIngestionMessage) :
    Records (applyAndCommit codec environment messages)
      (Advances codec messages (batchAck messages).partition (batchAck messages).nextOffset) := by
  have hbatch : Records (applyPartitionBatch codec environment messages) fun first result =>
      NoCommit first ∧
        (appliedOffsets first).Sublist (messages.map KafkaIngestionMessage.offset) ∧
        ∀ ack, result = .ok ack → ack = batchAck messages ∧
          ∀ message ∈ messages, Handled codec message first := by
    have hnone : NoCommit ([] : Journal (Effect M)) := by simp [NoCommit]
    unfold applyPartitionBatch
    have hchecked : Records (lift (validatePartitionBatch messages) :
        Ingestion M Unit) fun first _ => first = [] := Records.lift rfl
    refine hchecked.bind (fun first _ hfirst => ?_) fun first error hfirst => ?_
    · subst hfirst
      have hdecoding : Records (lift (messages.mapM fun message =>
          codec.decodeEnvelope message.payload) : Ingestion M (List M)) fun first result =>
            first = [] ∧ result = messages.mapM fun message =>
              codec.decodeEnvelope message.payload := Records.lift ⟨rfl, rfl⟩
      refine hdecoding.bind (fun second decoded hsecond => ?_) fun second error hsecond => ?_
      · obtain ⟨rfl, hdecoded⟩ := hsecond
        have hpairs := except_mapM_ok.mp hdecoded.symm
        have hfst : (messages.zip decoded).map Prod.fst = messages :=
          List.map_fst_zip hpairs.length_eq.le
        have hoffsets : ((messages.zip decoded).map fun pair => pair.1.offset) =
            messages.map KafkaIngestionMessage.offset := by
          rw [← hfst, List.map_map, hfst]
          rfl
        refine (applyAll_records environment (messages.zip decoded)).bind
          (fun third _ hthird => ?_) fun third error hthird => ?_
        · obtain ⟨huncommitted, happlied, hall⟩ := hthird
          refine Records.pure ⟨?_, ?_, fun ack hack => ?_⟩
          · simpa using huncommitted
          · simpa [hoffsets] using happlied
          · cases hack
            refine ⟨rfl, fun message hmessage => Or.inl ?_⟩
            rw [← hfst] at hmessage
            obtain ⟨⟨found, mutation⟩, hpair, rfl⟩ := List.mem_map.mp hmessage
            refine ⟨mutation, ?_, by simpa using hall rfl _ hpair⟩
            exact List.forall₂_iff_zip.mp hpairs |>.2 hpair
        · exact ⟨by simpa using hthird.1, by simpa [hoffsets] using hthird.2.1, nofun⟩
      · obtain ⟨rfl, -⟩ := hsecond
        exact ⟨hnone, List.nil_sublist _, nofun⟩
    · subst hfirst
      exact ⟨hnone, List.nil_sublist _, nofun⟩
  refine hbatch.bind (fun first ack hfirst => ?_) fun first error hfirst => ?_
  · obtain ⟨huncommitted, happlied, hack⟩ := hfirst
    obtain ⟨rfl, hhandled⟩ := hack ack rfl
    exact commitAck_advances huncommitted happlied hhandled
  · exact .stops hfirst.1 hfirst.2.1

/-! ### The whole buffer -/

/-- Increasing offsets of one partition. -/
structure Ordered (partition : Int32) (buffer : List OwnedMessage) : Prop where
  partition : ∀ message ∈ buffer, message.partition = partition
  increasing : buffer.Pairwise fun first second => first.offset < second.offset

/-- What the fresh attempts of a flush did with a buffer, and what is left of it. -/
structure Flushes (codec : EnvelopeCodec W M) (partition : Int32)
    (buffer remaining : List OwnedMessage) (fresh : Journal (Effect M))
    (result : Except KafkaIngestionError Unit) : Prop where
  commits : ∀ earlier later committed offset succeeded,
    fresh = earlier ++ ⟨.commit committed offset, succeeded⟩ :: later →
      committed = partition ∧ ∀ owned ∈ buffer, owned.offset < offset →
        ∃ message, ownedMessage owned = .ok message ∧ Handled codec message earlier
  applied : (appliedOffsets fresh).Sublist (buffer.map OwnedMessage.offset)
  dropped : ∃ gone, buffer = gone ++ remaining ∧ ∀ owned ∈ gone, ∃ last ∈ gone,
    owned.offset ≤ last.offset ∧ ⟨.commit partition (last.offset + 1), true⟩ ∈ fresh
  finished : result = .ok () → remaining = []

theorem Ordered.append_left {partition : Int32} {gone rest : List OwnedMessage}
    (h : Ordered partition (gone ++ rest)) : Ordered partition gone :=
  ⟨fun message hmessage => h.partition message (List.mem_append_left _ hmessage),
    (List.pairwise_append.mp h.increasing).1⟩

theorem Ordered.append_right {partition : Int32} {gone rest : List OwnedMessage}
    (h : Ordered partition (gone ++ rest)) : Ordered partition rest :=
  ⟨fun message hmessage => h.partition message (List.mem_append_right _ hmessage),
    (List.pairwise_append.mp h.increasing).2.1⟩

/-- No offset lies between an offset and the next one, which may wrap around. -/
theorem not_lt_next {first second : Int64} (h : first < second) : ¬second < first + 1 := by
  rw [Int64.lt_iff_toInt_lt] at h ⊢
  have hbound := second.toInt_lt
  have hlow := first.le_toInt
  have hone : (1 : Int64).toInt = 1 := rfl
  rw [Int64.toInt_add, hone, Int.bmod_eq_of_le (by omega) (by omega)]
  omega

section Part

variable {partition : Int32} {gone rest : List OwnedMessage} {part : List KafkaIngestionMessage}

theorem ownedMessage_ok {owned : OwnedMessage} {message : KafkaIngestionMessage}
    (h : ownedMessage owned = .ok message) :
    message.partition = owned.partition ∧ message.offset = owned.offset := by
  unfold ownedMessage at h
  split at h
  · cases h
    exact ⟨rfl, rfl⟩
  · cases h

theorem offsets_of_owned (h : ownedMessages gone = .ok part) :
    part.map KafkaIngestionMessage.offset = gone.map OwnedMessage.offset := by
  have hpairs := except_mapM_ok.mp h
  clear h
  induction hpairs with
  | nil => rfl
  | cons hhead _ ih => rw [List.map_cons, List.map_cons, ih, (ownedMessage_ok hhead).2]

theorem batchAck_of_owned (hordered : Ordered partition gone) (hgone : gone ≠ [])
    (h : ownedMessages gone = .ok part) : ∃ last ∈ gone,
      (∀ owned ∈ gone, owned.offset ≤ last.offset) ∧ (batchAck part).partition = partition ∧
        (batchAck part).nextOffset = last.offset + 1 := by
  obtain ⟨earlier, last, rfl⟩ := List.eq_nil_or_concat gone |>.resolve_left hgone
  rw [List.concat_eq_append] at *
  refine ⟨last, by simp, fun owned howned => ?_, ?_, ?_⟩
  · rcases List.mem_append.mp howned with hearlier | hlast
    · have hlt := (List.pairwise_append.mp hordered.increasing).2.2 owned hearlier last
        (List.mem_singleton_self _)
      exact Int64.le_of_lt hlt
    · rw [List.mem_singleton.mp hlast]
      exact Int64.le_refl _
  · obtain ⟨first, hfirst⟩ := List.exists_mem_of_ne_nil _ hgone
    have hpairs := except_mapM_ok.mp h
    cases hpart : part with
    | nil =>
      rw [hpart] at hpairs
      have hlength := hpairs.length_eq
      simp at hlength
    | cons message others =>
      obtain ⟨hall, -⟩ := mem_of_except_mapM h
      obtain ⟨owned, howned, hmessage⟩ := hall message (hpart ▸ List.mem_cons_self ..)
      exact (ownedMessage_ok hmessage).1.trans (hordered.partition owned howned)
  · have hoffsets := congrArg List.getLast? (offsets_of_owned h)
    rw [List.getLast?_map, List.map_append, List.map_singleton, List.getLast?_concat] at hoffsets
    rw [batchAck, hoffsets]
    rfl

variable {last : OwnedMessage} {fresh : Journal (Effect M)}

/-- Below the offset that is committed there are only messages of the part. -/
theorem handled_of_committed (hordered : Ordered partition (gone ++ rest)) (hlast : last ∈ gone)
    (h : ownedMessages gone = .ok part) (hhandled : ∀ message ∈ part, Handled codec message fresh)
    {owned : OwnedMessage} (howned : owned ∈ gone ++ rest) (hlt : owned.offset < last.offset + 1) :
    ∃ message, ownedMessage owned = .ok message ∧ Handled codec message fresh := by
  rcases List.mem_append.mp howned with hgone | hrest
  · obtain ⟨message, hmessage, howned⟩ := (mem_of_except_mapM h).2 owned hgone
    exact ⟨message, howned, hhandled message hmessage⟩
  · have hlater := (List.pairwise_append.mp hordered.increasing).2.2 last hlast owned hrest
    exact absurd hlt (not_lt_next hlater)

/-- A commit found behind attempts without one is the one that follows them, or a later one. -/
theorem split_commit {work fresh earlier later : Journal (Effect M)} {partition committed : Int32}
    {offset offset' : Int64} {succeeded succeeded' : Bool} (huncommitted : NoCommit work)
    (h : work ++ ⟨.commit partition offset, succeeded⟩ :: fresh =
      earlier ++ ⟨.commit committed offset', succeeded'⟩ :: later) :
    (earlier = work ∧ committed = partition ∧ offset' = offset) ∨
      ∃ middle, earlier = work ++ ⟨.commit partition offset, succeeded⟩ :: middle ∧
        fresh = middle ++ ⟨.commit committed offset', succeeded'⟩ :: later := by
  rcases List.append_eq_append_iff.mp h with ⟨middle, hearlier, hrest⟩ | ⟨middle, hwork, hrest⟩
  · cases middle with
    | nil =>
      rw [List.nil_append] at hrest
      obtain ⟨heq, -⟩ := List.cons.inj hrest
      cases heq
      exact Or.inl ⟨by rw [hearlier, List.append_nil], rfl, rfl⟩
    | cons attempt middle =>
      obtain ⟨rfl, hfresh⟩ := List.cons.inj hrest
      exact Or.inr ⟨middle, hearlier, hfresh⟩
  · cases middle with
    | nil =>
      rw [List.nil_append] at hrest
      obtain ⟨heq, -⟩ := List.cons.inj hrest
      cases heq
      exact Or.inl ⟨by rw [hwork, List.append_nil], rfl, rfl⟩
    | cons attempt middle =>
      obtain ⟨rfl, -⟩ := List.cons.inj hrest
      refine absurd ?_ (huncommitted committed offset' succeeded')
      rw [hwork]
      exact List.mem_append_right _ (List.mem_cons_self ..)

/-- A part that fails leaves the buffer as it was. -/
theorem Advances.flushes_error {error : KafkaIngestionError}
    (h : Advances codec part partition (last.offset + 1) fresh (.error error))
    (hordered : Ordered partition (gone ++ rest)) (hlast : last ∈ gone)
    (howned : ownedMessages gone = .ok part) :
    Flushes codec partition (gone ++ rest) (gone ++ rest) fresh (.error error) := by
  have happlied {work : Journal (Effect M)}
      (hwork : (appliedOffsets work).Sublist (part.map KafkaIngestionMessage.offset)) :
      (appliedOffsets work).Sublist ((gone ++ rest).map OwnedMessage.offset) := by
    rw [List.map_append, ← offsets_of_owned howned]
    exact hwork.trans (List.sublist_append_left ..)
  cases h with
  | stops uncommitted applied =>
    refine ⟨fun earlier later committed offset succeeded heq => ?_, happlied applied,
      ⟨[], rfl, nofun⟩, nofun⟩
    refine absurd ?_ (uncommitted committed offset succeeded)
    rw [heq]
    exact List.mem_append_right _ (List.mem_cons_self ..)
  | @commitFails work _ uncommitted applied handled =>
    refine ⟨fun earlier later committed offset succeeded heq => ?_, ?_, ⟨[], rfl, nofun⟩, nofun⟩
    · rcases split_commit uncommitted heq with ⟨rfl, rfl, rfl⟩ | ⟨middle, -, hnil⟩
      · exact ⟨rfl, fun owned hmem hlt =>
          handled_of_committed hordered hlast howned handled hmem hlt⟩
      · cases middle <;> cases hnil
    · rw [appliedOffsets_append]
      simpa [appliedOffsets] using happlied applied

/-- A part that is committed is taken off the buffer, and the flush goes on. -/
theorem Advances.flushes_ok
    (h : Advances codec part partition (last.offset + 1) fresh (.ok ()))
    (hordered : Ordered partition (gone ++ rest)) (hlast : last ∈ gone)
    (hle : ∀ owned ∈ gone, owned.offset ≤ last.offset) (howned : ownedMessages gone = .ok part)
    {remaining : List OwnedMessage} {later : Journal (Effect M)}
    {result : Except KafkaIngestionError Unit}
    (hrest : Flushes codec partition rest remaining later result) :
    Flushes codec partition (gone ++ rest) remaining (fresh ++ later) result := by
  cases h with
  | @commits work uncommitted applied handled =>
    have hcommit : (⟨.commit partition (last.offset + 1), true⟩ : Attempt (Effect M)) ∈
        work ++ [⟨.commit partition (last.offset + 1), true⟩] ++ later :=
      List.mem_append_left _ (List.mem_append_right _ (List.mem_singleton_self _))
    refine ⟨fun earlier following committed offset succeeded heq => ?_, ?_, ?_, hrest.finished⟩
    · rw [List.append_assoc, List.singleton_append] at heq
      rcases split_commit uncommitted heq with ⟨rfl, rfl, rfl⟩ | ⟨middle, rfl, hlater⟩
      · exact ⟨rfl, fun owned hmem hlt =>
          handled_of_committed hordered hlast howned handled hmem hlt⟩
      · obtain ⟨rfl, hbelow⟩ := hrest.commits middle following committed offset succeeded hlater
        refine ⟨rfl, fun owned hmem hlt => ?_⟩
        -- Messages of the part were handled before, those of the rest since.
        rcases List.mem_append.mp hmem with hgone | hlaterMessage
        · obtain ⟨message, hmessage, hok⟩ := (mem_of_except_mapM howned).2 owned hgone
          exact ⟨message, hok, (handled message hmessage).append _⟩
        · obtain ⟨message, hok, hhandled⟩ := hbelow owned hlaterMessage hlt
          refine ⟨message, hok, ?_⟩
          rw [← List.singleton_append, ← List.append_assoc]
          exact hhandled.prepend _
    · rw [appliedOffsets_append, appliedOffsets_append, List.map_append,
        ← offsets_of_owned howned]
      refine List.Sublist.append ?_ hrest.applied
      simpa [appliedOffsets] using applied
    · obtain ⟨dropped, rfl, hdropped⟩ := hrest.dropped
      refine ⟨gone ++ dropped, (List.append_assoc ..).symm, fun owned hmem => ?_⟩
      rcases List.mem_append.mp hmem with hgone | hdrop
      · exact ⟨last, List.mem_append_left _ hlast, hle owned hgone, hcommit⟩
      · obtain ⟨final, hfinal, hbelow, hmade⟩ := hdropped owned hdrop
        exact ⟨final, List.mem_append_right _ hfinal, hbelow, List.mem_append_right _ hmade⟩

end Part

theorem flushes_nil (partition : Int32) :
    Flushes codec partition [] [] ([] : Journal (Effect M)) (.ok ()) := by
  refine ⟨fun earlier later committed offset succeeded heq => ?_, List.Sublist.refl _,
    ⟨[], rfl, nofun⟩, fun _ => rfl⟩
  cases earlier <;> cases heq

theorem flushes_kept (partition : Int32) (buffer : List OwnedMessage)
    (error : KafkaIngestionError) :
    Flushes codec partition buffer buffer ([] : Journal (Effect M)) (.error error) := by
  refine ⟨fun earlier later committed offset succeeded heq => ?_, List.nil_sublist _,
    ⟨[], rfl, nofun⟩, nofun⟩
  cases earlier <;> cases heq

/-- A flush that starts with this journal and this buffer did what it should. -/
def Flushed.Sound (codec : EnvelopeCodec W M) (partition : Int32) (journal : Journal (Effect M))
    (buffer : List OwnedMessage) (flushed : Flushed M) : Prop :=
  ∃ fresh, flushed.journal = journal ++ fresh ∧
    Flushes codec partition buffer flushed.buffer fresh flushed.result

/-- One part after the other. -/
theorem Flushed.Sound.advance {partition : Int32} {gone rest : List OwnedMessage}
    {part : List KafkaIngestionMessage} {last : OwnedMessage} {program : Ingestion M Unit}
    {next : Journal (Effect M) → Flushed M}
    (hprogram : Records program (Advances codec part partition (last.offset + 1)))
    (hordered : Ordered partition (gone ++ rest)) (hlast : last ∈ gone)
    (hle : ∀ owned ∈ gone, owned.offset ≤ last.offset) (howned : ownedMessages gone = .ok part)
    (hnext : ∀ journal, (next journal).Sound codec partition journal rest)
    (journal : Journal (Effect M)) :
    (match program journal with
      | (.error error, journal) => (⟨journal, gone ++ rest, .error error⟩ : Flushed M)
      | (.ok (), journal) => next journal).Sound codec partition journal (gone ++ rest) := by
  obtain ⟨first, hjournal, hresult⟩ := hprogram journal
  rcases hcase : program journal with ⟨error | _, after⟩
  · rw [hcase] at hjournal hresult
    exact ⟨first, hjournal, hresult.flushes_error hordered hlast howned⟩
  · rw [hcase] at hjournal hresult
    obtain ⟨second, hsecond, hflushes⟩ := hnext after
    have hjournal : after = journal ++ first := hjournal
    refine ⟨first ++ second, ?_, hresult.flushes_ok hordered hlast hle howned hflushes⟩
    rw [hsecond, hjournal, List.append_assoc]

/-- Everything in the buffer can be applied at once. -/
theorem applyAndCommit_sound {partition : Int32} {buffer : List OwnedMessage}
    {messages : List KafkaIngestionMessage} (hordered : Ordered partition buffer)
    (hbuffer : buffer ≠ []) (hmessages : ownedMessages buffer = .ok messages)
    (journal : Journal (Effect M)) :
    (match applyAndCommit codec environment messages journal with
      | (.error error, journal) => (⟨journal, buffer, .error error⟩ : Flushed M)
      | (.ok (), journal) => ⟨journal, [], .ok ()⟩).Sound codec partition journal buffer := by
  obtain ⟨last, hlast, hle, hpartition, hnext⟩ := batchAck_of_owned hordered hbuffer hmessages
  have hprogram := applyAndCommit_advances codec environment messages
  rw [hpartition, hnext] at hprogram
  have hwhole : Ordered partition (buffer ++ []) := (List.append_nil buffer).symm ▸ hordered
  have hnothing (journal : Journal (Effect M)) :
      (⟨journal, [], .ok ()⟩ : Flushed M).Sound codec partition journal [] :=
    ⟨[], (List.append_nil journal).symm, flushes_nil partition⟩
  have hsound := Flushed.Sound.advance hprogram hwhole hlast hle hmessages hnothing journal
  rwa [List.append_nil] at hsound

/-- A prefix of an encodable buffer is encoded by itself. -/
theorem ownedMessages_take {buffer : List OwnedMessage} {messages : List KafkaIngestionMessage}
    (h : ownedMessages buffer = .ok messages) (count : ℕ) :
    ownedMessages (buffer.take count) = .ok (messages.take count) :=
  except_mapM_ok.mpr (List.forall₂_take count (except_mapM_ok.mp h))

theorem flushPartitionWithDlq_sound {config : KafkaIngestionConfig} {topic : String}
    {partition : Int32} {buffer : List OwnedMessage} (hordered : Ordered partition buffer)
    (journal : Journal (Effect M)) :
    (flushPartitionWithDlq codec environment config topic partition journal buffer).Sound codec
      partition journal buffer := by
  -- The buffer gets shorter with every part.
  induction hlength : buffer.length using Nat.strong_induction_on generalizing buffer journal with
  | h length ih =>
    subst hlength
    have hrest (count : ℕ) (hpos : 0 < count) (hbuffer : buffer ≠ []) (after : Journal (Effect M)) :
        (flushPartitionWithDlq codec environment config topic partition after
          (buffer.drop count)).Sound codec partition after (buffer.drop count) := by
      have hlt : (buffer.drop count).length < buffer.length := by
        have hlength := List.length_pos_of_ne_nil hbuffer
        rw [List.length_drop]
        omega
      have hsplit : Ordered partition (buffer.take count ++ buffer.drop count) := by
        rwa [List.take_append_drop]
      exact ih _ hlt hsplit.append_right after rfl
    rw [flushPartitionWithDlq]
    split
    · rename_i hempty
      subst hempty
      exact ⟨[], (List.append_nil journal).symm, flushes_nil partition⟩
    · rename_i hbuffer
      cases hmessages : ownedMessages buffer with
      | error error =>
        exact ⟨[], (List.append_nil journal).symm, flushes_kept partition buffer error⟩
      | ok messages =>
        cases hpoison : firstPoison codec messages with
        | none =>
          simp only [hpoison]
          exact applyAndCommit_sound hordered hbuffer hmessages journal
        | some poison =>
          obtain ⟨index, error⟩ := poison
          cases index with
          | succ index =>
            have hsplit := List.take_append_drop (index + 1) buffer
            have hordered' := hordered
            rw [← hsplit] at hordered'
            have htake : buffer.take (index + 1) ≠ [] := by simp [hbuffer]
            obtain ⟨last, hlast, hle, hpartition, hnext⟩ := batchAck_of_owned
              hordered'.append_left htake (ownedMessages_take hmessages (index + 1))
            have hprogram := applyAndCommit_advances codec environment (messages.take (index + 1))
            rw [hpartition, hnext] at hprogram
            have hsound := Flushed.Sound.advance hprogram hordered' hlast hle
              (ownedMessages_take hmessages (index + 1)) (hrest (index + 1) (by omega) hbuffer)
              journal
            rw [hsplit] at hsound
            simp only [hpoison]
            exact hsound
          | zero =>
            obtain ⟨first, others, rfl⟩ := List.exists_cons_of_ne_nil hbuffer
            have hpairs := except_mapM_ok.mp hmessages
            obtain ⟨message, following, hmessage, -, rfl⟩ := List.forall₂_cons_left_iff.mp hpairs
            have hprogram : Records (publishAndCommit environment config topic partition message
                error) (Advances codec [message] partition (message.offset + 1)) :=
              publishAndCommit_advances
            rw [(ownedMessage_ok hmessage).2] at hprogram
            have hone : ownedMessages [first] = .ok [message] :=
              except_mapM_ok.mpr (List.Forall₂.cons hmessage .nil)
            simp only [hpoison]
            have hfirst : Ordered partition ([first] ++ others) := hordered
            exact Flushed.Sound.advance hprogram hfirst (List.mem_singleton_self _)
              (fun owned howned => List.mem_singleton.mp howned ▸ Int64.le_refl _) hone
              (hrest 1 (by omega) hbuffer) journal

theorem flushPartition_sound (codec : EnvelopeCodec W M) (environment : Environment M)
    (config : KafkaIngestionConfig) (dlqProducer : Bool) {partition : Int32}
    {buffer : List OwnedMessage} (hordered : Ordered partition buffer)
    (journal : Journal (Effect M)) :
    (flushPartition codec environment config dlqProducer partition journal buffer).Sound codec
      partition journal buffer := by
  unfold flushPartition
  split
  · rename_i hempty
    subst hempty
    exact ⟨[], (List.append_nil journal).symm, flushes_nil partition⟩
  · rename_i hbuffer
    split
    · cases hmessages : ownedMessages buffer with
      | error error =>
        exact ⟨[], (List.append_nil journal).symm, flushes_kept partition buffer error⟩
      | ok messages => exact applyAndCommit_sound hordered hbuffer hmessages journal
    · split
      · exact flushPartitionWithDlq_sound hordered journal
      · exact ⟨[], (List.append_nil journal).symm, flushes_kept partition buffer _⟩

/-- At least once: nothing below a committed offset is lost, messages are applied
in the order of their offsets, and what no commit covers stays in the buffer. -/
theorem flushPartition_atLeastOnce (config : KafkaIngestionConfig) (dlqProducer : Bool)
    (partition : Int32) (journal : Journal (Effect M)) (buffer : List OwnedMessage)
    (hordered : Ordered partition buffer) :
    ∃ fresh,
      (flushPartition codec environment config dlqProducer partition journal buffer).journal =
        journal ++ fresh ∧
      (appliedOffsets fresh).Pairwise (· < ·) ∧
      Flushes codec partition buffer
        (flushPartition codec environment config dlqProducer partition journal buffer).buffer fresh
        (flushPartition codec environment config dlqProducer partition journal buffer).result := by
  obtain ⟨fresh, hjournal, hflushes⟩ := flushPartition_sound codec environment config
    dlqProducer hordered journal
  refine ⟨fresh, hjournal, ?_, hflushes⟩
  exact (List.pairwise_map.mpr hordered.increasing).sublist hflushes.applied

/-! ### A buffer with an undecodable message -/

def emptyIsInvalid : EnvelopeCodec Unit Unit where
  fromSlice payload := if payload = [] then .error "EOF while parsing" else .ok ⟨1, ()⟩
  convert := .ok

def reachable : Environment Unit where
  apply _ _ _ := .ok ()
  publish _ _ := .ok ()
  commit _ _ _ := .ok ()

def dlqConfig : KafkaIngestionConfig where
  topic := "records"
  collectionId := ⟨"a", CollectionId.validate_a⟩
  batchMaxRecords := 2
  poisonPolicy := .dlq "records.dlq"

def poisonedBuffer : List OwnedMessage := [⟨0, 3, some [123]⟩, ⟨0, 5, some []⟩]

theorem ordered_poisonedBuffer : Ordered 0 poisonedBuffer :=
  ⟨by simp [poisonedBuffer], by simp only [poisonedBuffer]; decide⟩

theorem flushPartition_atLeastOnce_poisoned : ∃ fresh,
    (flushPartition emptyIsInvalid reachable dlqConfig true 0 [] poisonedBuffer).journal =
      [] ++ fresh ∧
    (appliedOffsets fresh).Pairwise (· < ·) ∧
    Flushes emptyIsInvalid 0 poisonedBuffer
      (flushPartition emptyIsInvalid reachable dlqConfig true 0 [] poisonedBuffer).buffer fresh
      (flushPartition emptyIsInvalid reachable dlqConfig true 0 [] poisonedBuffer).result :=
  flushPartition_atLeastOnce dlqConfig true 0 [] poisonedBuffer ordered_poisonedBuffer

end Ketebe.Kafka
