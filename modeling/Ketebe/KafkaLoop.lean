import Ketebe.KafkaFlush
import Ketebe.Lib.Runs
import Std.Data.ExtTreeMap

/-!
The consumer loop of Kafka ingestion. Rebalance callbacks run inside `recv` and
queue their events; the loop handles them at the top of its next iteration, when
the message of the same `recv` is already in its buffer.
-/
namespace Ketebe.Kafka

open Lib.Attempts Lib.Runs

inductive RebalanceEvent where
  | assigned (partitions : List Int32)
  | revoked (partitions : List Int32)

/-- What the consumer reports to the rebalance callback. An assigned partition
comes with the offset at which its delivery starts. -/
inductive Rebalance where
  | assign (partitions : List (Int32 × ℤ))
  | revoke (partitions : List Int32)
  | error (message : String)

def preRebalance : Rebalance → Option RebalanceEvent
  | .assign partitions => some (.assigned (partitions.map Prod.fst))
  | .revoke partitions => some (.revoked partitions)
  | .error _ => none

/-- How `recv` ends under its timeout. -/
inductive Received where
  | message (message : OwnedMessage)
  | failed (error : String)
  | timeout

/-- What one iteration of the loop meets. -/
inductive Turn where
  | draining (paused : Except String Unit)
  | recv (callbacks : List Rebalance) (received : Received)

/-- The memory of the loop, the attempts made so far, and with which buffers
`flush_partition` was called. -/
structure Ingestor (M : Type) where
  events : List RebalanceEvent
  buffers : Std.ExtTreeMap Int32 (List OwnedMessage) compare
  journal : Journal (Effect M)
  calls : List (Int32 × List OwnedMessage)

variable {W M : Type}

namespace Ingestor

def start : Ingestor M := ⟨[], ∅, [], []⟩

def nonEmpty (ingestor : Ingestor M) : List Int32 :=
  ingestor.buffers.toList.filterMap fun (partition, buffer) =>
    if buffer = [] then none else some partition

variable (codec : EnvelopeCodec W M) (environment : Environment M)
  (config : KafkaIngestionConfig) (dlqProducer : Bool)

def flush (partition : Int32) (ingestor : Ingestor M) :
    Ingestor M × Except KafkaIngestionError Unit :=
  match ingestor.buffers[partition]? with
  | none => (ingestor, .ok ())
  | some buffer =>
      let flushed := flushPartition codec environment config dlqProducer partition
        ingestor.journal buffer
      ({ ingestor with
          buffers := ingestor.buffers.insert partition flushed.buffer
          journal := flushed.journal
          calls := ingestor.calls ++ [(partition, buffer)] }, flushed.result)

def flushEach : List Int32 → Ingestor M → Ingestor M × Except KafkaIngestionError Unit
  | [], ingestor => (ingestor, .ok ())
  | partition :: rest, ingestor =>
      match flush codec environment config dlqProducer partition ingestor with
      | (ingestor, .error error) => (ingestor, .error error)
      | (ingestor, .ok ()) => flushEach rest ingestor

/-- The loop over the partitions of a `Revoked` event. -/
def revoke : List Int32 → Ingestor M → Ingestor M × Except KafkaIngestionError Unit
  | [], ingestor => (ingestor, .ok ())
  | partition :: rest, ingestor =>
      match flush codec environment config dlqProducer partition ingestor with
      | (ingestor, .error error) => (ingestor, .error error)
      | (ingestor, .ok ()) =>
          revoke rest { ingestor with buffers := ingestor.buffers.erase partition }

def handleEvents : List RebalanceEvent → Ingestor M →
    Ingestor M × Except KafkaIngestionError Unit
  | [], ingestor => (ingestor, .ok ())
  | .assigned _ :: rest, ingestor => handleEvents rest ingestor
  | .revoked partitions :: rest, ingestor =>
      match revoke codec environment config dlqProducer partitions ingestor with
      | (ingestor, .error error) => (ingestor, .error error)
      | (ingestor, .ok ()) => handleEvents rest ingestor

def handleRebalanceEvents (ingestor : Ingestor M) :
    Ingestor M × Except KafkaIngestionError Unit :=
  handleEvents codec environment config dlqProducer ingestor.events { ingestor with events := [] }

def push (message : OwnedMessage) (ingestor : Ingestor M) : Ingestor M :=
  { ingestor with
    buffers := ingestor.buffers.insert message.partition
      ((ingestor.buffers[message.partition]?).getD [] ++ [message]) }

/-- What the loop does with the outcome of `recv`. -/
def receive (received : Received) (ingestor : Ingestor M) :
    Ingestor M × Except KafkaIngestionError Unit :=
  match received with
  | .message message =>
      let ingestor := ingestor.push message
      if config.batchMaxRecords ≤ ((ingestor.buffers[message.partition]?).getD []).length then
        flush codec environment config dlqProducer message.partition ingestor
      else (ingestor, .ok ())
  | .failed error => (ingestor, .error (.kafka error))
  | .timeout => flushEach codec environment config dlqProducer ingestor.nonEmpty ingestor

/-- One iteration. It says how the loop ends, or nothing when it goes on. -/
def iterate (turn : Turn) (ingestor : Ingestor M) :
    Ingestor M × Option (Except KafkaIngestionError Unit) :=
  match turn with
  | .draining (.error error) => (ingestor, some (.error (.kafka error)))
  | .draining (.ok ()) =>
      let outcome := flushEach codec environment config dlqProducer ingestor.nonEmpty ingestor
      (outcome.1, some outcome.2)
  | .recv callbacks received =>
      match handleRebalanceEvents codec environment config dlqProducer ingestor with
      | (ingestor, .error error) => (ingestor, some (.error error))
      | (ingestor, .ok ()) =>
          match receive codec environment config dlqProducer received
              { ingestor with events := callbacks.filterMap preRebalance } with
          | (ingestor, .error error) => (ingestor, some (.error error))
          | (ingestor, .ok ()) => (ingestor, none)

end Ingestor

/-! ### The consumer -/

/-- Up to where each assigned partition is delivered. -/
abbrev Positions := Int32 → Option ℤ

/-- Delivery starts anew after an assignment, if the partition was not assigned already. -/
def Positions.assign (positions : Positions) (assigned : Int32 × ℤ) : Positions :=
  if positions assigned.1 = none then Function.update positions assigned.1 (some assigned.2)
  else positions

def Positions.rebalance (positions : Positions) : Rebalance → Positions
  | .assign partitions => partitions.foldl Positions.assign positions
  | .revoke partitions => fun partition =>
      if partition ∈ partitions then none else positions partition
  | .error _ => positions

def Positions.deliver (positions : Positions) : Received → Positions
  | .message message =>
      Function.update positions message.partition (some (message.offset.toInt + 1))
  | _ => positions

def Positions.turn (positions : Positions) : Turn → Positions
  | .draining _ => positions
  | .recv callbacks received => (callbacks.foldl Positions.rebalance positions).deliver received

/-- The loop together with its consumer. -/
structure Loop (M : Type) where
  ingestor : Ingestor M
  positions : Positions
  ended : Option (Except KafkaIngestionError Unit)

namespace Loop

def start : Loop M := ⟨.start, fun _ => none, none⟩

variable (codec : EnvelopeCodec W M) (environment : Environment M)
  (config : KafkaIngestionConfig) (dlqProducer : Bool)

def step (loop : Loop M) (turn : Turn) : Loop M :=
  match loop.ended with
  | some _ => loop
  | none =>
      let outcome := loop.ingestor.iterate codec environment config dlqProducer turn
      ⟨outcome.1, loop.positions.turn turn, outcome.2⟩

end Loop

end Ketebe.Kafka
