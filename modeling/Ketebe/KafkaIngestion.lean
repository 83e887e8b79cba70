import Ketebe.Identifiers
import Ketebe.Lib.Attempts
import Ketebe.Lib.ByteCodec

/-!
Ingestion of one Kafka partition. A batch is validated, decoded and applied
message by message, and its offset is committed when all of it is applied. Under
the dead-letter policy an undecodable message is published instead.
-/
namespace Ketebe

open Lib.Attempts Lib.ByteCodec

namespace Kafka

/-- What applying a message fails with, by the service that applies it. -/
inductive ApplyError where
  | write (error : String)
  | embedding (error : String)
  | chunking (error : String)
  | tokenChunking (error : String)
  | semanticChunking (error : String)
  deriving DecidableEq, Repr

inductive KafkaIngestionError where
  | invalidConfig (message : String)
  | emptyBatch
  | mixedPartitions
  | nonMonotonicOffsets
  | missingPayload
  | unsupportedEnvelopeVersion (version : UInt32)
  | decode (error : String)
  | invalidEnvelope (message : String)
  | apply (error : ApplyError)
  | dlq (message : String)
  | kafka (error : String)
  deriving DecidableEq, Repr

namespace KafkaIngestionError

def display : KafkaIngestionError → String
  | .invalidConfig message => "invalid Kafka ingestion config: " ++ message
  | .emptyBatch => "Kafka ingestion batch must not be empty"
  | .mixedPartitions => "Kafka ingestion batch mixes partitions"
  | .nonMonotonicOffsets => "Kafka ingestion offsets are not strictly increasing"
  | .missingPayload => "Kafka record payload is missing"
  | .unsupportedEnvelopeVersion version =>
      "unsupported Kafka envelope version " ++ toString version.toNat
  | .decode error => "invalid Kafka envelope JSON: " ++ error
  | .invalidEnvelope message => "invalid Kafka envelope: " ++ message
  | .apply (.write error) => "Ketebe write failed: " ++ error
  | .apply (.embedding error) => "Ketebe embedding failed: " ++ error
  | .apply (.chunking error) => "Ketebe chunking failed: " ++ error
  | .apply (.tokenChunking error) => "Ketebe token chunking failed: " ++ error
  | .apply (.semanticChunking error) => "Ketebe semantic chunking failed: " ++ error
  | .dlq message => "Kafka DLQ publish failed: " ++ message
  | .kafka error => "Kafka error: " ++ error

end KafkaIngestionError

def poisonErrorClass : KafkaIngestionError → String
  | .missingPayload => "missing_payload"
  | .unsupportedEnvelopeVersion _ => "unsupported_version"
  | .decode _ => "invalid_json"
  | .invalidEnvelope _ => "invalid_envelope"
  | _ => "ingestion_error"

/-- A message as the consumer delivers it. -/
structure OwnedMessage where
  partition : Int32
  offset : Int64
  payload : Option Bytes

structure KafkaIngestionMessage where
  partition : Int32
  offset : Int64
  payload : Bytes

structure KafkaBatchAck where
  partition : Int32
  nextOffset : Int64
  appliedRecords : ℕ

structure KafkaDlqEnvelope where
  version : UInt32
  sourceTopic : String
  sourcePartition : Int32
  sourceOffset : Int64
  targetCollection : String
  errorClass : String
  errorMessage : String
  payload : Bytes

inductive KafkaPoisonPolicy where
  | block
  | dlq (topic : String)

structure KafkaIngestionConfig where
  topic : String
  collectionId : CollectionId
  batchMaxRecords : ℕ
  poisonPolicy : KafkaPoisonPolicy

structure WireEnvelope (W : Type) where
  version : UInt32
  mutation : W

/-- The JSON reader of envelopes, and the conversion of what it reads. -/
structure EnvelopeCodec (W M : Type) where
  fromSlice : Bytes → Except String (WireEnvelope W)
  convert : W → Except String M

variable {W M : Type}

def EnvelopeCodec.decodeEnvelope (codec : EnvelopeCodec W M) (payload : Bytes) :
    Except KafkaIngestionError M :=
  match codec.fromSlice payload with
  | .error error => .error (.decode error)
  | .ok envelope =>
      if envelope.version ≠ 1 then .error (.unsupportedEnvelopeVersion envelope.version)
      else (codec.convert envelope.mutation).mapError .invalidEnvelope

/-- What ingestion does to the outside. -/
inductive Effect (M : Type) where
  | apply (message : KafkaIngestionMessage) (mutation : M)
  | publish (topic : String) (envelope : KafkaDlqEnvelope)
  | commit (partition : Int32) (offset : Int64)

/-- The answers of the collection, of the producer and of the broker, which may
depend on everything attempted before. -/
structure Environment (M : Type) where
  apply : Journal (Effect M) → KafkaIngestionMessage → M → Except ApplyError Unit
  publish : Journal (Effect M) → KafkaDlqEnvelope → Except String Unit
  commit : Journal (Effect M) → Int32 → Int64 → Except String Unit

abbrev Ingestion (M α : Type) := Program (Effect M) KafkaIngestionError α

/-! ### Batches -/

/-- The loop of `validate_partition_batch`. -/
def checkOffsets (partition : Int32) : Option Int64 → List KafkaIngestionMessage →
    Except KafkaIngestionError Unit
  | _, [] => .ok ()
  | previous, message :: rest =>
      if message.partition ≠ partition then .error .mixedPartitions
      else match previous with
        | some offset =>
            if message.offset ≤ offset then .error .nonMonotonicOffsets
            else checkOffsets partition (some message.offset) rest
        | none => checkOffsets partition (some message.offset) rest

def validatePartitionBatch (messages : List KafkaIngestionMessage) :
    Except KafkaIngestionError Unit :=
  match messages with
  | [] => .error .emptyBatch
  | first :: _ => checkOffsets first.partition none messages

def ownedMessage (message : OwnedMessage) : Except KafkaIngestionError KafkaIngestionMessage :=
  match message.payload with
  | some payload => .ok ⟨message.partition, message.offset, payload⟩
  | none => .error .missingPayload

def ownedMessages (buffer : List OwnedMessage) :
    Except KafkaIngestionError (List KafkaIngestionMessage) :=
  buffer.mapM ownedMessage

variable (codec : EnvelopeCodec W M) (environment : Environment M)

def applyMessage (message : KafkaIngestionMessage) (mutation : M) : Ingestion M Unit :=
  attempt (.apply message mutation) fun journal =>
    (environment.apply journal message mutation).mapError .apply

def applyAll : List (KafkaIngestionMessage × M) → Ingestion M Unit
  | [] => pure ()
  | (message, mutation) :: rest => do
    applyMessage environment message mutation
    applyAll rest

/-- The acknowledgement of a batch that is not empty. -/
def batchAck (messages : List KafkaIngestionMessage) : KafkaBatchAck where
  partition := (messages.head?.map KafkaIngestionMessage.partition).getD 0
  nextOffset := (messages.getLast?.map KafkaIngestionMessage.offset).getD 0 + 1
  appliedRecords := messages.length

def applyPartitionBatch (messages : List KafkaIngestionMessage) : Ingestion M KafkaBatchAck := do
  lift (validatePartitionBatch messages)
  let decoded ← lift (messages.mapM fun message => codec.decodeEnvelope message.payload)
  applyAll environment (messages.zip decoded)
  pure (batchAck messages)

/-- A commit also fails when its offset does not fit into the request. -/
def commitAck (ack : KafkaBatchAck) : Ingestion M Unit :=
  attempt (.commit ack.partition ack.nextOffset) fun journal =>
    (environment.commit journal ack.partition ack.nextOffset).mapError .kafka

/-- A publication also fails when the envelope cannot be serialized. -/
def publishDlq (topic : String) (envelope : KafkaDlqEnvelope) : Ingestion M Unit :=
  attempt (.publish topic envelope) fun journal =>
    (environment.publish journal envelope).mapError .dlq

def applyAndCommit (messages : List KafkaIngestionMessage) : Ingestion M Unit := do
  let ack ← applyPartitionBatch codec environment messages
  commitAck environment ack

/-! ### Flushing a buffer -/

/-- The first message that cannot be decoded. -/
def firstPoison : List KafkaIngestionMessage → Option (ℕ × KafkaIngestionError)
  | [] => none
  | message :: rest =>
      match codec.decodeEnvelope message.payload with
      | .error error => some (0, error)
      | .ok _ => (firstPoison rest).map fun (index, error) => (index + 1, error)

def dlqEnvelope (config : KafkaIngestionConfig) (partition : Int32)
    (message : KafkaIngestionMessage) (error : KafkaIngestionError) : KafkaDlqEnvelope where
  version := 1
  sourceTopic := config.topic
  sourcePartition := partition
  sourceOffset := message.offset
  targetCollection := config.collectionId.asStr
  errorClass := poisonErrorClass error
  errorMessage := error.display
  payload := message.payload

def publishAndCommit (config : KafkaIngestionConfig) (topic : String) (partition : Int32)
    (message : KafkaIngestionMessage) (error : KafkaIngestionError) : Ingestion M Unit := do
  publishDlq environment topic (dlqEnvelope config partition message error)
  commitAck environment ⟨partition, message.offset + 1, 0⟩

/-- What a flush leaves: the journal, the buffer, and how it ended. -/
structure Flushed (M : Type) where
  journal : Journal (Effect M)
  buffer : List OwnedMessage
  result : Except KafkaIngestionError Unit

def flushPartitionWithDlq (config : KafkaIngestionConfig) (topic : String) (partition : Int32)
    (journal : Journal (Effect M)) (buffer : List OwnedMessage) : Flushed M :=
  if _ : buffer = [] then ⟨journal, buffer, .ok ()⟩
  else match ownedMessages buffer with
    | .error error => ⟨journal, buffer, .error error⟩
    | .ok messages =>
        match firstPoison codec messages with
        | none =>
            match applyAndCommit codec environment messages journal with
            | (.error error, journal) => ⟨journal, buffer, .error error⟩
            | (.ok (), journal) => ⟨journal, [], .ok ()⟩
        | some (index + 1, _) =>
            match applyAndCommit codec environment (messages.take (index + 1)) journal with
            | (.error error, journal) => ⟨journal, buffer, .error error⟩
            | (.ok (), journal) =>
                flushPartitionWithDlq config topic partition journal (buffer.drop (index + 1))
        | some (0, error) =>
            match messages with
            | [] => ⟨journal, buffer, .ok ()⟩
            | message :: _ =>
                match publishAndCommit environment config topic partition message error journal with
                | (.error error, journal) => ⟨journal, buffer, .error error⟩
                | (.ok (), journal) =>
                    flushPartitionWithDlq config topic partition journal (buffer.drop 1)
termination_by buffer.length
decreasing_by
  all_goals
    have := List.length_pos_of_ne_nil ‹¬buffer = []›
    simp only [List.length_drop]
    omega

def flushPartition (config : KafkaIngestionConfig) (dlqProducer : Bool) (partition : Int32)
    (journal : Journal (Effect M)) (buffer : List OwnedMessage) : Flushed M :=
  if buffer = [] then ⟨journal, buffer, .ok ()⟩
  else match config.poisonPolicy with
    | .block =>
        match ownedMessages buffer with
        | .error error => ⟨journal, buffer, .error error⟩
        | .ok messages =>
            match applyAndCommit codec environment messages journal with
            | (.error error, journal) => ⟨journal, buffer, .error error⟩
            | (.ok (), journal) => ⟨journal, [], .ok ()⟩
    | .dlq topic =>
        if dlqProducer then
          flushPartitionWithDlq codec environment config topic partition journal buffer
        else ⟨journal, buffer, .error (.invalidConfig "DLQ producer is not configured")⟩

end Kafka

end Ketebe
