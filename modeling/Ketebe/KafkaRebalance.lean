import Ketebe.KafkaLoop

/-!
Rebalances and the buffers of the loop. A buffer keeps increasing offsets as long
as every message that arrives together with a revocation of its partition lies
beyond what is still buffered for it.
-/
namespace Ketebe.Kafka

open Lib.Attempts Lib.ByteCodec Lib.Runs

variable {W M : Type} {codec : EnvelopeCodec W M} {environment : Environment M}
  {config : KafkaIngestionConfig} {dlqProducer : Bool}

/-! ### Errors of a flush -/

theorem checkOffsets_increasing {partition : Int32} {messages : List KafkaIngestionMessage}
    (hpartition : ∀ message ∈ messages, message.partition = partition)
    (hincreasing : messages.Pairwise fun first second => first.offset < second.offset)
    (previous : Option Int64)
    (hprevious : ∀ offset, previous = some offset → ∀ message ∈ messages, offset < message.offset) :
    checkOffsets partition previous messages = .ok () := by
  induction messages generalizing previous with
  | nil => cases previous <;> rfl
  | cons message rest ih =>
    obtain ⟨hfirst, hrest⟩ := List.pairwise_cons.mp hincreasing
    have hnext := ih (fun other hother => hpartition other (List.mem_cons_of_mem _ hother)) hrest
      (some message.offset) fun offset hoffset other hother =>
        Option.some.inj hoffset ▸ hfirst other hother
    have hsame := hpartition message (List.mem_cons_self ..)
    cases previous with
    | none => simp only [checkOffsets, hsame, ne_eq, not_true_eq_false, if_false, hnext]
    | some offset =>
      have hlt := hprevious offset rfl message (List.mem_cons_self ..)
      have hnot : ¬message.offset ≤ offset := Int64.not_le.mpr hlt
      simp only [checkOffsets, hsame, ne_eq, not_true_eq_false, if_false, hnot, hnext]

/-- Nothing has found the offsets of a batch out of order. -/
def Orderly {α : Type} (result : Except KafkaIngestionError α) : Prop :=
  result ≠ .error .nonMonotonicOffsets

theorem Orderly.error {α β : Type} {error : KafkaIngestionError}
    (h : Orderly (.error error : Except _ α)) : Orderly (.error error : Except _ β) :=
  fun heq => h (congrArg _ (Except.error.inj heq))

theorem validatePartitionBatch_orderly {partition : Int32} {buffer : List OwnedMessage}
    {messages : List KafkaIngestionMessage} (hordered : Ordered partition buffer)
    (hmessages : ownedMessages buffer = .ok messages) :
    Orderly (validatePartitionBatch messages) := by
  have hpartition : ∀ message ∈ messages, message.partition = partition := by
    intro message hmessage
    obtain ⟨owned, howned, hok⟩ := (mem_of_except_mapM hmessages).1 message hmessage
    exact (ownedMessage_ok hok).1.trans (hordered.partition owned howned)
  have hincreasing : messages.Pairwise fun first second => first.offset < second.offset := by
    have hoffsets := List.pairwise_map.mpr hordered.increasing
    rw [← offsets_of_owned hmessages] at hoffsets
    exact List.pairwise_map.mp hoffsets
  cases messages with
  | nil =>
    intro h
    cases h
  | cons first rest =>
    have hfirst := hpartition first (List.mem_cons_self ..)
    rw [Orderly, validatePartitionBatch, hfirst,
      checkOffsets_increasing hpartition hincreasing none (fun _ h => by cases h)]
    intro h
    cases h

theorem decodeEnvelope_orderly (payload : Bytes) : Orderly (codec.decodeEnvelope payload) := by
  unfold EnvelopeCodec.decodeEnvelope
  split
  · nofun
  · split
    · nofun
    · rename_i envelope _ _
      cases codec.convert envelope.mutation <;> nofun

theorem orderly_mapM {α β : Type} {f : α → Except KafkaIngestionError β}
    (h : ∀ element, Orderly (f element)) (elements : List α) : Orderly (elements.mapM f) := by
  induction elements with
  | nil => nofun
  | cons element rest ih =>
    rw [List.mapM_cons]
    cases hfirst : f element with
    | error error => exact (hfirst ▸ h element).error
    | ok value =>
      cases hrest : rest.mapM f with
      | error error => exact (hrest ▸ ih).error
      | ok values => nofun

theorem orderly_mapError {ε α : Type} {wrap : ε → KafkaIngestionError} {result : Except ε α}
    (h : ∀ error, wrap error ≠ .nonMonotonicOffsets) : Orderly (result.mapError wrap) := by
  cases result with
  | error error => exact fun heq => h error (Except.error.inj heq)
  | ok value => nofun

section Programs

variable {α β : Type}

theorem orderly_lift {result : Except KafkaIngestionError α} (h : Orderly result) :
    Records (lift result : Ingestion M α) fun _ result => Orderly result := Records.lift h

theorem orderly_attempt {effect : Effect M}
    {answer : Journal (Effect M) → Except KafkaIngestionError Unit}
    (h : ∀ journal, Orderly (answer journal)) :
    Records (attempt effect answer) fun _ result => Orderly result :=
  Records.attempt nofun fun journal _ herror => herror ▸ h journal

theorem orderly_bind {program : Ingestion M α} {next : α → Ingestion M β}
    (h : Records program fun _ result => Orderly result)
    (hnext : ∀ value, Records (next value) fun _ result => Orderly result) :
    Records (program >>= next) fun _ result => Orderly result :=
  h.bind (fun _ value _ => hnext value) fun _ _ herror => herror.error

end Programs

theorem commitAck_orderly (ack : KafkaBatchAck) :
    Records (commitAck environment ack) fun _ result => Orderly result :=
  orderly_attempt fun _ => orderly_mapError nofun

theorem applyAll_orderly (pairs : List (KafkaIngestionMessage × M)) :
    Records (applyAll environment pairs) fun _ result => Orderly result := by
  induction pairs with
  | nil => exact Records.pure nofun
  | cons pair rest ih =>
    exact orderly_bind (orderly_attempt fun _ => orderly_mapError nofun) fun _ => ih

theorem applyAndCommit_orderly {messages : List KafkaIngestionMessage}
    (hvalid : Orderly (validatePartitionBatch messages)) :
    Records (applyAndCommit codec environment messages) fun _ result => Orderly result := by
  refine orderly_bind (orderly_bind (orderly_lift hvalid) fun _ => ?_) commitAck_orderly
  refine orderly_bind (orderly_lift ?_) fun decoded => ?_
  · exact orderly_mapM (fun message => decodeEnvelope_orderly message.payload) messages
  · exact orderly_bind (applyAll_orderly _) fun _ => Records.pure nofun

theorem publishAndCommit_orderly {topic : String} {partition : Int32}
    {message : KafkaIngestionMessage} {error : KafkaIngestionError} :
    Records (publishAndCommit environment config topic partition message error)
      fun _ result => Orderly result :=
  orderly_bind (orderly_attempt fun _ => orderly_mapError nofun) fun _ => commitAck_orderly _

theorem ownedMessages_orderly (buffer : List OwnedMessage) : Orderly (ownedMessages buffer) := by
  refine orderly_mapM (fun owned => ?_) buffer
  unfold ownedMessage
  split <;> nofun

theorem orderly_of_records {program : Ingestion M Unit} {journal after : Journal (Effect M)}
    {error : KafkaIngestionError} (h : Records program fun _ result => Orderly result)
    (hprogram : program journal = (.error error, after)) :
    Orderly (.error error : Except _ Unit) := by
  obtain ⟨fresh, -, hresult⟩ := h journal
  rwa [hprogram] at hresult

theorem flushPartitionWithDlq_orderly {topic : String} {partition : Int32}
    {journal : Journal (Effect M)} {buffer : List OwnedMessage}
    (hordered : Ordered partition buffer) :
    Orderly (flushPartitionWithDlq codec environment config topic partition journal
      buffer).result := by
  fun_induction flushPartitionWithDlq codec environment config topic partition journal buffer with
  | case1 => nofun
  | case2 _ buffer _ error hmessages =>
    exact (hmessages ▸ ownedMessages_orderly buffer).error
  | case3 _ _ _ messages hmessages _ error _ hprogram =>
    have hvalid := validatePartitionBatch_orderly hordered hmessages
    exact orderly_of_records (applyAndCommit_orderly hvalid) hprogram
  | case4 => nofun
  | case5 _ buffer _ messages hmessages index _ _ error _ hprogram =>
    rw [← List.take_append_drop (index + 1) buffer] at hordered
    have hvalid := validatePartitionBatch_orderly hordered.append_left
      (ownedMessages_take hmessages (index + 1))
    exact orderly_of_records (applyAndCommit_orderly hvalid) hprogram
  | case6 _ buffer _ _ _ index _ _ _ _ ih =>
    rw [← List.take_append_drop (index + 1) buffer] at hordered
    exact ih hordered.append_right
  | case7 => nofun
  | case8 _ _ _ _ _ _ _ _ hprogram =>
    exact orderly_of_records publishAndCommit_orderly hprogram
  | case9 _ buffer _ _ _ _ _ _ _ _ ih =>
    rw [← List.take_append_drop 1 buffer] at hordered
    exact ih hordered.append_right

/-- A flush takes messages off the front, and finds the offsets of an ordered buffer in order. -/
theorem flushPartition_orderly (codec : EnvelopeCodec W M) (environment : Environment M)
    (config : KafkaIngestionConfig) (dlqProducer : Bool) {partition : Int32}
    (journal : Journal (Effect M)) {buffer : List OwnedMessage} (hordered : Ordered partition buffer) :
    Orderly (flushPartition codec environment config dlqProducer partition journal buffer).result ∧
    ∃ gone, buffer = gone ++
      (flushPartition codec environment config dlqProducer partition journal buffer).buffer := by
  obtain ⟨fresh, -, hflushes⟩ := flushPartition_sound codec environment config dlqProducer
    hordered journal
  obtain ⟨gone, hgone, -⟩ := hflushes.dropped
  refine ⟨?_, gone, hgone⟩
  unfold flushPartition
  split
  · intro h
    cases h
  · split
    · split
      · rename_i error hmessages
        exact (hmessages ▸ ownedMessages_orderly buffer).error
      · rename_i messages hmessages
        have hvalid := validatePartitionBatch_orderly hordered hmessages
        split
        · rename_i hprogram
          exact orderly_of_records (applyAndCommit_orderly hvalid) hprogram
        · intro h
          cases h
    · split
      · exact flushPartitionWithDlq_orderly hordered
      · intro h
        cases h

/-! ### The buffers of the loop -/

def revokedPartitions (events : List RebalanceEvent) : List Int32 :=
  events.flatMap fun
    | .assigned _ => []
    | .revoked partitions => partitions

/-- All buffers are in order. Where no revocation waits to be handled, the messages
lie before the position of delivery. -/
structure Settled (positions : Positions) (revoked : List Int32) (ingestor : Ingestor M) :
    Prop where
  ordered : ∀ (partition : Int32) (buffer : List OwnedMessage),
    ingestor.buffers[partition]? = some buffer → Ordered partition buffer
  before : ∀ (partition : Int32) (buffer : List OwnedMessage),
    ingestor.buffers[partition]? = some buffer → partition ∉ revoked →
      partition ∉ revokedPartitions ingestor.events →
        ∀ message ∈ buffer, ∃ position,
          positions partition = some position ∧ message.offset.toInt < position
  calls : ∀ call ∈ ingestor.calls, Ordered call.1 call.2

/-- A part of the loop was called with ordered buffers only, and leaves the loop
settled unless it fails. -/
structure Leaves (positions : Positions) (revoked : List Int32)
    (outcome : Ingestor M × Except KafkaIngestionError Unit) : Prop where
  orderly : Orderly outcome.2
  calls : ∀ call ∈ outcome.1.calls, Ordered call.1 call.2
  settled : outcome.2 = .ok () → Settled positions revoked outcome.1

variable {positions : Positions} {revoked : List Int32} {ingestor : Ingestor M}

theorem Settled.leaves (h : Settled positions revoked ingestor)
    {result : Except KafkaIngestionError Unit} (hresult : Orderly result) :
    Leaves positions revoked (ingestor, result) := ⟨hresult, h.calls, fun _ => h⟩

theorem Leaves.bind {positions' : Positions} {revoked' : List Int32}
    {outcome : Ingestor M × Except KafkaIngestionError Unit}
    {next : Ingestor M → Ingestor M × Except KafkaIngestionError Unit}
    (h : Leaves positions revoked outcome)
    (hnext : ∀ ingestor, Settled positions revoked ingestor →
      Leaves positions' revoked' (next ingestor)) :
    Leaves positions' revoked' (match outcome with
      | (ingestor, .error error) => (ingestor, .error error)
      | (ingestor, .ok ()) => next ingestor) := by
  rcases outcome with ⟨ingestor, error | _⟩
  · exact ⟨h.orderly, h.calls, nofun⟩
  · exact hnext ingestor (h.settled rfl)

namespace Settled

theorem flush (h : Settled positions revoked ingestor) (partition : Int32) :
    Leaves positions revoked
      (ingestor.flush codec environment config dlqProducer partition) := by
  unfold Ingestor.flush
  split
  · exact h.leaves nofun
  · rename_i buffer hbuffer
    have hordered := h.ordered partition buffer hbuffer
    obtain ⟨horderly, gone, hgone⟩ := flushPartition_orderly codec environment config
      dlqProducer ingestor.journal hordered
    refine Settled.leaves ⟨fun other kept hkept => ?_, fun other kept hkept => ?_, ?_⟩ horderly
    · rw [Std.ExtTreeMap.getElem?_insert] at hkept
      split at hkept
      · rename_i hsame
        obtain rfl := Std.LawfulEqOrd.eq_of_compare hsame
        cases hkept
        rw [hgone] at hordered
        exact hordered.append_right
      · exact h.ordered other kept hkept
    · rw [Std.ExtTreeMap.getElem?_insert] at hkept
      split at hkept
      · rename_i hsame
        obtain rfl := Std.LawfulEqOrd.eq_of_compare hsame
        cases hkept
        intro hrevoked hevents message hmessage
        refine h.before partition buffer hbuffer hrevoked hevents message ?_
        rw [hgone]
        exact List.mem_append_right _ hmessage
      · exact h.before other kept hkept
    · intro call hcall
      rcases List.mem_append.mp hcall with hearlier | hlast
      · exact h.calls call hearlier
      · rw [List.mem_singleton.mp hlast]
        exact hordered

theorem flushEach (h : Settled positions revoked ingestor) (partitions : List Int32) :
    Leaves positions revoked
      (ingestor.flushEach codec environment config dlqProducer partitions) := by
  induction partitions generalizing ingestor with
  | nil => exact h.leaves nofun
  | cons partition rest ih => exact (h.flush partition).bind fun _ hnext => ih hnext

/-- Without its buffer a partition has nothing before its position. -/
theorem erase {partition : Int32} (h : Settled positions (partition :: revoked) ingestor) :
    Settled positions revoked { ingestor with buffers := ingestor.buffers.erase partition } := by
  refine ⟨fun other kept hkept => ?_, fun other kept hkept => ?_, h.calls⟩
  · rw [Std.ExtTreeMap.getElem?_erase] at hkept
    split at hkept
    · cases hkept
    · exact h.ordered other kept hkept
  · rw [Std.ExtTreeMap.getElem?_erase] at hkept
    split at hkept
    · cases hkept
    · rename_i hother
      intro hrevoked
      refine h.before other kept hkept fun hmem => ?_
      rcases List.mem_cons.mp hmem with rfl | hmem
      · exact hother Std.ReflCmp.compare_self
      · exact hrevoked hmem

theorem revoke {partitions : List Int32} (h : Settled positions (partitions ++ revoked) ingestor) :
    Leaves positions revoked
      (ingestor.revoke codec environment config dlqProducer partitions) := by
  induction partitions generalizing ingestor with
  | nil => exact h.leaves nofun
  | cons partition rest ih => exact (h.flush partition).bind fun _ hnext => ih hnext.erase

theorem handleEvents {events : List RebalanceEvent}
    (h : Settled positions (revokedPartitions events) ingestor) :
    Leaves positions [] (ingestor.handleEvents codec environment config dlqProducer events) := by
  induction events generalizing ingestor with
  | nil => exact h.leaves nofun
  | cons event rest ih =>
    cases event with
    | assigned _ => exact ih h
    | revoked partitions => exact h.revoke.bind fun _ hnext => ih hnext

theorem handleRebalanceEvents (h : Settled positions [] ingestor) :
    Leaves positions []
      (ingestor.handleRebalanceEvents codec environment config dlqProducer) := by
  refine Settled.handleEvents ⟨h.ordered, fun partition buffer hbuffer hevents _ => ?_, h.calls⟩
  exact h.before partition buffer hbuffer List.not_mem_nil hevents

end Settled

/-! ### What the events at the top of an iteration leave -/

theorem flush_frame (codec : EnvelopeCodec W M) (environment : Environment M)
    (config : KafkaIngestionConfig) (dlqProducer : Bool) (ingestor : Ingestor M)
    (partition : Int32) :
    (ingestor.flush codec environment config dlqProducer partition).1.events = ingestor.events ∧
    ∀ other : Int32, other ≠ partition →
      (ingestor.flush codec environment config dlqProducer partition).1.buffers[other]? =
        ingestor.buffers[other]? := by
  unfold Ingestor.flush
  split
  · exact ⟨rfl, fun _ _ => rfl⟩
  · refine ⟨rfl, fun other hother => ?_⟩
    rw [Std.ExtTreeMap.getElem?_insert, if_neg]
    exact fun hsame => hother (Std.LawfulEqOrd.eq_of_compare hsame).symm

theorem revoke_ok {partitions : List Int32} {next : Ingestor M}
    (h : ingestor.revoke codec environment config dlqProducer partitions = (next, .ok ())) :
    next.events = ingestor.events ∧ ∀ (other : Int32) (buffer : List OwnedMessage),
      next.buffers[other]? = some buffer →
        other ∉ partitions ∧ ingestor.buffers[other]? = some buffer := by
  induction partitions generalizing ingestor with
  | nil =>
    cases h
    exact ⟨rfl, fun _ _ hbuffer => ⟨List.not_mem_nil, hbuffer⟩⟩
  | cons partition rest ih =>
    obtain ⟨hsame, hframe⟩ := flush_frame codec environment config dlqProducer ingestor partition
    unfold Ingestor.revoke at h
    split at h
    · cases h
    · rename_i middle hflush
      rw [hflush] at hsame hframe
      obtain ⟨hevents, hrest⟩ := ih h
      refine ⟨hevents.trans hsame, fun other buffer hbuffer => ?_⟩
      obtain ⟨hnot, hkept⟩ := hrest other buffer hbuffer
      rw [Std.ExtTreeMap.getElem?_erase] at hkept
      split at hkept
      · cases hkept
      · rename_i hdifferent
        have hother : other ≠ partition := by
          intro heq
          exact hdifferent (heq ▸ Std.ReflCmp.compare_self)
        exact ⟨List.not_mem_cons_of_ne_of_not_mem hother hnot, hframe other hother ▸ hkept⟩

theorem handleEvents_ok {events : List RebalanceEvent} {next : Ingestor M}
    (h : ingestor.handleEvents codec environment config dlqProducer events = (next, .ok ())) :
    next.events = ingestor.events ∧ ∀ (other : Int32) (buffer : List OwnedMessage),
      next.buffers[other]? = some buffer →
        other ∉ revokedPartitions events ∧ ingestor.buffers[other]? = some buffer := by
  induction events generalizing ingestor with
  | nil =>
    cases h
    exact ⟨rfl, fun _ _ hbuffer => ⟨List.not_mem_nil, hbuffer⟩⟩
  | cons event rest ih =>
    cases event with
    | assigned _ => exact ih h
    | revoked partitions =>
      unfold Ingestor.handleEvents at h
      split at h
      · cases h
      · rename_i middle hrevoke
        obtain ⟨hmiddle, hfirst⟩ := revoke_ok hrevoke
        obtain ⟨hevents, hrest⟩ := ih h
        refine ⟨hevents.trans hmiddle, fun other buffer hbuffer => ?_⟩
        obtain ⟨hlater, hkept⟩ := hrest other buffer hbuffer
        obtain ⟨hearlier, hkept⟩ := hfirst other buffer hkept
        refine ⟨fun hmem => ?_, hkept⟩
        rcases List.mem_append.mp hmem with hmem | hmem
        · exact hearlier hmem
        · exact hlater hmem

/-! ### The position of delivery -/

theorem assign_kept {assigned : List (Int32 × ℤ)} {partition : Int32} {position : ℤ}
    (h : positions partition = some position) :
    assigned.foldl Positions.assign positions partition = some position := by
  induction assigned generalizing positions with
  | nil => exact h
  | cons first rest ih =>
    refine ih ?_
    unfold Positions.assign
    split
    · rename_i hnone
      rw [Function.update_of_ne, h]
      rintro rfl
      cases hnone.symm.trans h
    · exact h

/-- Only a revocation moves the position of an assigned partition. -/
theorem rebalance_kept {callbacks : List Rebalance} {partition : Int32} {position : ℤ}
    (hrevoked : partition ∉ revokedPartitions (callbacks.filterMap preRebalance))
    (h : positions partition = some position) :
    callbacks.foldl Positions.rebalance positions partition = some position := by
  induction callbacks generalizing positions with
  | nil => exact h
  | cons callback rest ih =>
    cases callback with
    | assign assigned => exact ih hrevoked (assign_kept h)
    | revoke partitions =>
      have hsplit : partition ∉ partitions ++
          revokedPartitions (rest.filterMap preRebalance) := hrevoked
      rw [List.mem_append, not_or] at hsplit
      exact ih hsplit.2 ((if_neg hsplit.1).trans h)
    | error _ => exact ih hrevoked h

namespace Loop

/-- The consumer delivers the messages of an assigned partition from its position on. -/
def Delivers (loop : Loop M) (turn : Turn) : Prop :=
  ∀ callbacks message, turn = .recv callbacks (.message message) → ∃ position,
    callbacks.foldl Positions.rebalance loop.positions message.partition = some position ∧
      position ≤ message.offset.toInt

/-- A message that arrives together with a revocation of its partition lies beyond
everything that is still buffered for it. -/
def Undisturbed (loop : Loop M) (turn : Turn) : Prop :=
  ∀ callbacks message, turn = .recv callbacks (.message message) →
    message.partition ∈ revokedPartitions (callbacks.filterMap preRebalance) →
      message.partition ∉ revokedPartitions loop.ingestor.events →
        ∀ buffer, loop.ingestor.buffers[message.partition]? = some buffer →
          ∀ buffered ∈ buffer, buffered.offset < message.offset

end Loop

theorem Ordered.concat {partition : Int32} {buffer : List OwnedMessage} {message : OwnedMessage}
    (h : Ordered partition buffer) (hpartition : message.partition = partition)
    (hafter : ∀ buffered ∈ buffer, buffered.offset < message.offset) :
    Ordered partition (buffer ++ [message]) := by
  refine ⟨fun other hother => ?_, ?_⟩
  · rcases List.mem_append.mp hother with hmem | hmem
    · exact h.partition other hmem
    · rw [List.mem_singleton.mp hmem, hpartition]
  · refine List.pairwise_append.mpr ⟨h.increasing, List.pairwise_singleton .., ?_⟩
    intro buffered hbuffered other hother
    rw [List.mem_singleton.mp hother]
    exact hafter buffered hbuffered

namespace Settled

/-- The callbacks of a `recv`, before its outcome. -/
theorem callbacks (h : Settled positions [] ingestor) (hevents : ingestor.events = [])
    (callbacks : List Rebalance) :
    Settled (callbacks.foldl Positions.rebalance positions) []
      { ingestor with events := callbacks.filterMap preRebalance } := by
  refine ⟨h.ordered, fun partition buffer hbuffer _ hrevoked message hmessage => ?_, h.calls⟩
  have hnone : partition ∉ revokedPartitions ingestor.events := by
    rw [hevents]
    exact List.not_mem_nil
  obtain ⟨position, hposition, hlt⟩ :=
    h.before partition buffer hbuffer List.not_mem_nil hnone message hmessage
  exact ⟨position, rebalance_kept hrevoked hposition, hlt⟩

theorem push {message : OwnedMessage} (h : Settled positions [] ingestor)
    (hafter : ∀ buffer, ingestor.buffers[message.partition]? = some buffer →
      ∀ buffered ∈ buffer, buffered.offset < message.offset) :
    Settled (positions.deliver (.message message)) [] (ingestor.push message) := by
  have hlast : ∀ buffered ∈ (ingestor.buffers[message.partition]?).getD [],
      buffered.offset < message.offset := by
    intro buffered hbuffered
    cases hbuffer : ingestor.buffers[message.partition]? with
    | none =>
      rw [hbuffer] at hbuffered
      cases hbuffered
    | some buffer =>
      rw [hbuffer] at hbuffered
      exact hafter buffer hbuffer buffered hbuffered
  have hordered : Ordered message.partition ((ingestor.buffers[message.partition]?).getD []) := by
    cases hbuffer : ingestor.buffers[message.partition]? with
    | none => exact ⟨nofun, .nil⟩
    | some buffer => exact h.ordered _ buffer hbuffer
  refine ⟨fun other kept hkept => ?_, fun other kept hkept => ?_, h.calls⟩
  · unfold Ingestor.push at hkept
    rw [Std.ExtTreeMap.getElem?_insert] at hkept
    split at hkept
    · rename_i hsame
      obtain rfl := Std.LawfulEqOrd.eq_of_compare hsame
      cases hkept
      exact hordered.concat rfl hlast
    · exact h.ordered other kept hkept
  · unfold Ingestor.push at hkept
    rw [Std.ExtTreeMap.getElem?_insert] at hkept
    split at hkept
    · rename_i hsame
      obtain rfl := Std.LawfulEqOrd.eq_of_compare hsame
      cases hkept
      intro _ _ buffered hbuffered
      refine ⟨message.offset.toInt + 1, Function.update_self .., ?_⟩
      rcases List.mem_append.mp hbuffered with hearlier | hnew
      · have hlt := Int64.lt_iff_toInt_lt.mp (hlast buffered hearlier)
        omega
      · rw [List.mem_singleton.mp hnew]
        omega
    · rename_i hdifferent
      intro hrevoked hevents buffered hbuffered
      obtain ⟨position, hposition, hlt⟩ := h.before other kept hkept hrevoked hevents buffered hbuffered
      refine ⟨position, ?_, hlt⟩
      rw [Positions.deliver, Function.update_of_ne, hposition]
      rintro rfl
      exact hdifferent Std.ReflCmp.compare_self

theorem receive (h : Settled positions [] ingestor) (codec : EnvelopeCodec W M)
    (environment : Environment M) (config : KafkaIngestionConfig) (dlqProducer : Bool)
    {received : Received}
    (hafter : ∀ message, received = .message message →
      ∀ buffer, ingestor.buffers[message.partition]? = some buffer →
        ∀ buffered ∈ buffer, buffered.offset < message.offset) :
    Leaves (positions.deliver received) []
      (ingestor.receive codec environment config dlqProducer received) := by
  cases received with
  | message message =>
    have hpushed := h.push (hafter message rfl)
    unfold Ingestor.receive
    dsimp only
    split
    · exact hpushed.flush message.partition
    · exact hpushed.leaves nofun
  | failed error => exact h.leaves nofun
  | timeout => exact h.flushEach _

end Settled

namespace Loop

/-- What holds of the loop in every run. -/
structure Invariant (loop : Loop M) : Prop where
  calls : ∀ call ∈ loop.ingestor.calls, Ordered call.1 call.2
  orderly : ∀ result, loop.ended = some result → Orderly result
  settled : loop.ended = none → Settled loop.positions [] loop.ingestor

theorem invariant_start : (start : Loop M).Invariant := by
  have hbuffer {partition : Int32} {buffer : List OwnedMessage}
      (h : (start : Loop M).ingestor.buffers[partition]? = some buffer) : False := by
    rw [start, Ingestor.start, Std.ExtTreeMap.getElem?_empty] at h
    cases h
  exact ⟨nofun, nofun, fun _ => ⟨fun _ _ h => (hbuffer h).elim, fun _ _ h => (hbuffer h).elim,
    nofun⟩⟩

theorem Invariant.step {loop : Loop M} {turn : Turn} (h : loop.Invariant)
    (hdelivers : loop.Delivers turn) (hundisturbed : loop.Undisturbed turn) :
    (loop.step codec environment config dlqProducer turn).Invariant := by
  unfold Loop.step
  split
  · exact h
  · rename_i hrunning
    have hsettled := h.settled hrunning
    unfold Ingestor.iterate
    dsimp only
    split
    · refine ⟨h.calls, fun result hresult => ?_, nofun⟩
      cases hresult
      nofun
    · have hflushed : Leaves loop.positions [] (loop.ingestor.flushEach codec environment config
          dlqProducer loop.ingestor.nonEmpty) := hsettled.flushEach loop.ingestor.nonEmpty
      refine ⟨hflushed.calls, fun result hresult => ?_, nofun⟩
      cases hresult
      exact hflushed.orderly
    · rename_i callbacks received
      have hhandled : Leaves loop.positions [] (loop.ingestor.handleRebalanceEvents codec
          environment config dlqProducer) := hsettled.handleRebalanceEvents
      split
      · rename_i error hresult
        rw [hresult] at hhandled
        refine ⟨hhandled.calls, fun result hended => ?_, nofun⟩
        cases hended
        exact hhandled.orderly
      · rename_i middle hresult
        rw [hresult] at hhandled
        obtain ⟨hevents, hkept⟩ := handleEvents_ok hresult
        have hready := (hhandled.settled rfl).callbacks hevents callbacks
        have hafter : ∀ message, received = .message message → ∀ buffer,
            middle.buffers[message.partition]? = some buffer →
            ∀ buffered ∈ buffer, buffered.offset < message.offset := by
          intro message hmessage buffer hbuffer buffered hbuffered
          subst hmessage
          obtain ⟨position, hposition, hle⟩ := hdelivers callbacks message rfl
          by_cases hrevoked : message.partition ∈
              revokedPartitions (callbacks.filterMap preRebalance)
          · obtain ⟨hnot, hbefore⟩ := hkept message.partition buffer hbuffer
            exact hundisturbed callbacks message rfl hrevoked hnot buffer hbefore buffered hbuffered
          · obtain ⟨reached, hreached, hlt⟩ := hready.before message.partition buffer hbuffer
              List.not_mem_nil hrevoked buffered hbuffered
            cases hreached.symm.trans hposition
            exact Int64.lt_iff_toInt_lt.mpr (hlt.trans_le hle)
        have hreceived := hready.receive codec environment config dlqProducer hafter
        split
        · rename_i hended
          rw [hended] at hreceived
          refine ⟨hreceived.calls, fun result hended => ?_, nofun⟩
          cases hended
          exact hreceived.orderly
        · rename_i hended
          rw [hended] at hreceived
          exact ⟨hreceived.calls, nofun, fun _ => hreceived.settled rfl⟩

/-- As long as no rebalance disturbs a buffer, every flushed buffer is in order. -/
theorem ordered_of_undisturbed (config : KafkaIngestionConfig) (dlqProducer : Bool)
    {loop : Loop M}
    (h : Reaches (step codec environment config dlqProducer)
      (fun loop turn => loop.Delivers turn ∧ loop.Undisturbed turn) start loop) :
    (∀ call ∈ loop.ingestor.calls, Ordered call.1 call.2) ∧
      loop.ended ≠ some (.error .nonMonotonicOffsets) := by
  have hinvariant := h.invariant Loop.Invariant invariant_start
    fun _ _ hloop hturn => hloop.step hturn.1 hturn.2
  exact ⟨hinvariant.calls, fun hended => hinvariant.orderly _ hended rfl⟩

/-! ### A redelivery within one `recv` -/

def lastCommitted (partition : Int32) (journal : Journal (Effect M)) : Option Int64 :=
  (journal.filterMap fun attempt =>
    match attempt with
    | ⟨.commit committed offset, true⟩ => if committed = partition then some offset else none
    | _ => none).getLast?

/-- Delivery restarts at the last committed offset, or else at the first one. -/
def Restarts (codec : EnvelopeCodec W M) (environment : Environment M)
    (config : KafkaIngestionConfig) (dlqProducer : Bool) (loop : Loop M) (turn : Turn) : Prop :=
  ∀ callbacks received, turn = .recv callbacks received →
    ∀ partitions, .assign partitions ∈ callbacks → ∀ assigned ∈ partitions,
      assigned.2 = ((lastCommitted assigned.1 (loop.ingestor.handleRebalanceEvents codec environment
        config dlqProducer).1.journal).map Int64.toInt).getD 0

def blockConfig : KafkaIngestionConfig := { dlqConfig with poisonPolicy := .block }

def firstMessage : OwnedMessage := ⟨0, 0, some [123]⟩

def assignAndDeliver : Turn := .recv [.assign [(0, 0)]] (.message firstMessage)

def reassignAndRedeliver : Turn :=
  .recv [.revoke [0], .assign [(0, 0)]] (.message firstMessage)

def delivered : Loop Unit :=
  start.step emptyIsInvalid reachable blockConfig false assignAndDeliver

def redelivered : Loop Unit :=
  delivered.step emptyIsInvalid reachable blockConfig false reassignAndRedeliver

theorem delivers_assignAndDeliver : (start : Loop Unit).Delivers assignAndDeliver := by
  intro callbacks message hturn
  cases hturn
  exact ⟨0, rfl, by decide⟩

theorem not_ordered_redelivered :
    Reaches (step emptyIsInvalid reachable blockConfig false)
      (fun loop turn => loop.Delivers turn ∧
        loop.Restarts emptyIsInvalid reachable blockConfig false turn) start redelivered ∧
    (∃ call ∈ redelivered.ingestor.calls, ¬Ordered call.1 call.2) ∧
      redelivered.ended = some (.error .nonMonotonicOffsets) := by
  have hfirst : (start : Loop Unit).Restarts emptyIsInvalid reachable blockConfig false
      assignAndDeliver := by
    intro callbacks received hturn partitions hassign assigned hmem
    cases hturn
    cases List.mem_singleton.mp hassign
    cases List.mem_singleton.mp hmem
    rfl
  have hdelivers : delivered.Delivers reassignAndRedeliver := by
    intro callbacks message hturn
    cases hturn
    exact ⟨0, rfl, by decide⟩
  -- Nothing has been committed, so delivery starts with the first message again.
  have hsecond : delivered.Restarts emptyIsInvalid reachable blockConfig false
      reassignAndRedeliver := by
    intro callbacks received hturn partitions hassign assigned hmem
    cases hturn
    obtain hrevoke | hassign := List.mem_cons.mp hassign
    · cases hrevoke
    · cases List.mem_singleton.mp hassign
      cases List.mem_singleton.mp hmem
      rfl
  have hcalls : redelivered.ingestor.calls = [(0, [firstMessage, firstMessage])] := rfl
  refine ⟨((Reaches.refl start).tail _ ⟨delivers_assignAndDeliver, hfirst⟩).tail _
    ⟨hdelivers, hsecond⟩, ⟨(0, [firstMessage, firstMessage]), ?_, fun hordered => ?_⟩, rfl⟩
  · rw [hcalls]
    exact List.mem_singleton_self _
  · have hlt := (List.pairwise_cons.mp hordered.increasing).1 firstMessage
      (List.mem_singleton_self _)
    exact absurd hlt (by decide)

theorem ordered_of_undisturbed_delivered :
    (∀ call ∈ delivered.ingestor.calls, Ordered call.1 call.2) ∧
      delivered.ended ≠ some (.error .nonMonotonicOffsets) := by
  have hundisturbed : (start : Loop Unit).Undisturbed assignAndDeliver := by
    intro callbacks message hturn hrevoked
    cases hturn
    cases hrevoked
  exact @ordered_of_undisturbed _ _ emptyIsInvalid reachable blockConfig false _
    ((Reaches.refl start).tail assignAndDeliver ⟨delivers_assignAndDeliver, hundisturbed⟩)

end Loop

end Ketebe.Kafka
