import Ketebe.HnswBuild
import Ketebe.SegmentStore

/-!
The stored graph of a collection. A snapshot carries a fingerprint of the
checkpoint it was built from and is used only under the same fingerprint;
`fingerprint` is a parameter, so that a result can ask it to be injective.
-/
namespace Ketebe

open Lib.ByteCodec

namespace HnswIndex

variable (S : Type) [ScoreArith S]

def checkEdge (graph : HnswIndex) (position layer : ℕ) (neighbors : List ℕ) (index : ℕ) :
    Except HnswError Unit :=
  match neighbors[index]? with
  | none => .ok ()
  | some neighbor =>
      match graph.nodes[neighbor]? with
      | none => .error (.invalidGraph "neighbor is out of bounds")
      | some node =>
          if neighbor = position then .error (.invalidGraph "node contains a self edge")
          else if node.level < layer then
            .error (.invalidGraph "neighbor does not exist at referenced layer")
          else if neighbor ∈ neighbors.take index then
            .error (.invalidGraph "duplicate neighbor edge")
          else .ok ()

def checkLayer (graph : HnswIndex) (position : ℕ) (neighbors : List ℕ) (layer : ℕ) :
    Except HnswError Unit :=
  (List.range neighbors.length).forM (checkEdge graph position layer neighbors)

def checkNode (graph : HnswIndex) (dimension : ℕ) (node : HnswNode) (position : ℕ) :
    Except HnswError Unit :=
  if node.record.vector.length ≠ dimension then
    .error (.dimensionMismatch dimension node.record.vector.length)
  else if graph.metric = .cosine ∧ hasZeroNorm S node.record.vector.values then
    .error .zeroNormVector
  else if node.neighbors.length ≠ node.level + 1 then
    .error (.invalidGraph "node layer count does not match node level")
  else node.neighbors.zipIdx.forM fun (neighbors, layer) =>
    checkLayer graph position neighbors layer

def checkEntry (graph : HnswIndex) (entry : ℕ) : Except HnswError Unit :=
  match graph.nodes[entry]? with
  | none => .error (.invalidGraph "entry point is out of bounds")
  | some node =>
      if (graph.nodes.map HnswNode.level).foldl max 0 ≠ graph.maxLevel ∨
          node.level ≠ graph.maxLevel then
        .error (.invalidGraph "max level or entry point level is inconsistent")
      else .ok ()

def checkEmpty (graph : HnswIndex) : Except HnswError Unit :=
  if graph.entryPoint ≠ none ∨ graph.maxLevel ≠ 0 ∨ graph.dimension ≠ none then
    .error (.invalidGraph "empty graph has non-empty topology metadata")
  else .ok ()

def checkNonEmpty (graph : HnswIndex) : Except HnswError Unit :=
  match graph.dimension, graph.entryPoint with
  | none, _ => .error (.invalidGraph "non-empty graph is missing dimension")
  | some 0, _ => .error (.invalidGraph "graph dimension is zero")
  | some _, none => .error (.invalidGraph "non-empty graph is missing entry point")
  | some dimension, some entry => do
    checkEntry graph entry
    graph.nodes.zipIdx.forM fun (node, position) => checkNode S graph dimension node position

/-- The index of a stored graph, which must be well formed. -/
def fromNativeGraph (graph : HnswIndex) : Except HnswError HnswIndex := do
  let _ ← graph.config.validate
  if graph.nodes = [] then checkEmpty graph else checkNonEmpty S graph
  pure graph

/-- A graph is restored as it was stored. -/
theorem fromNativeGraph_ok {S : Type} [ScoreArith S] {graph index : HnswIndex}
    (h : fromNativeGraph S graph = .ok index) : index = graph := by
  obtain ⟨-, -, h⟩ := except_bind_ok.mp h
  split at h
  · obtain ⟨⟨⟩, -, h⟩ := except_bind_ok.mp h
    cases h
    rfl
  · obtain ⟨⟨⟩, -, h⟩ := except_bind_ok.mp h
    cases h
    rfl

end HnswIndex

/-! ### Snapshots -/

/-- What identifies the state that a snapshot was built from. -/
structure HnswIdentity where
  checkpoint : Checkpoint
  metric : DistanceMetric
  config : HnswConfig
  deriving DecidableEq

def hashByte (hash : UInt64) (byte : UInt8) : UInt64 := (hash ^^^ byte.toUInt64) * 0x100000001b3

def metricTag : DistanceMetric → UInt8
  | .cosine => 0
  | .dot => 1
  | .l2 => 2

/-- The fingerprint of the server, FNV-1a over the parts of the identity. -/
def fingerprint (identity : HnswIdentity) : UInt64 :=
  let sizes := [identity.config.m, identity.config.efConstruction, identity.config.efSearch]
  let bytes : Bytes := utf8 identity.checkpoint.collectionId.asStr ++
    leBytes 8 identity.checkpoint.sequenceNumber.toNat ++
    identity.checkpoint.segments.flatMap (fun segment => leBytes 8 segment.toNat) ++
    [metricTag identity.metric] ++ sizes.flatMap (fun size => leBytes 8 (min size maxSequence))
  bytes.foldl hashByte 0xcbf29ce484222325

/-- The source has one domain error with a text; `invalidValue` carries that text. -/
inductive HnswSnapshotError where
  | io
  | invalidMagic
  | unsupportedVersion (version : UInt8)
  | checksumMismatch
  | corrupt (message : String)
  | domain (error : SegmentError)
  | invalidValue (message : String)
  | hnsw (error : HnswError)
  deriving DecidableEq, Repr

/-- The content of the snapshot file; the legacy format keeps no graph. -/
inductive DecodedSnapshot (F : Type) where
  | legacy (fingerprint : F) (collectionId : CollectionId) (metric : DistanceMetric)
      (config : HnswConfig) (records : List Record)
  | native (fingerprint : F) (graph : HnswIndex)

inductive HnswLoadResult where
  | loaded (index : HnswIndex)
  | missing
  | stale

namespace DecodedSnapshot

section Load

variable (S : Type) [ScoreArith S] {F : Type}

/-- The checks that reading the file makes on its decoded content. -/
def read : DecodedSnapshot F → Except HnswSnapshotError Unit
  | .legacy _ _ _ config _ => do
    let _ ← config.validate.mapError .hnsw
    pure ()
  | .native _ graph => do
    let _ ← graph.config.validate.mapError .hnsw
    let _ ← (HnswIndex.fromNativeGraph S graph).mapError .hnsw
    pure ()

/-- Builds the graph of a legacy snapshot anew. -/
def restoreIndex (collectionId : CollectionId) (metric : DistanceMetric) (config : HnswConfig)
    (records : List Record) : Except HnswSnapshotError HnswIndex :=
  if records = [] then (HnswIndex.build S [] collectionId metric config).mapError .hnsw
  else do
    let sorted := records.mergeSort fun left right => left.sequenceNumber ≤ right.sequenceNumber
    let segment ← (Segment.fromMutations (UInt64.ofNat (maxSequence - 1))
      (sorted.map (WalMutation.upsert collectionId))).mapError .domain
    (HnswIndex.build S [segment] collectionId metric config).mapError .hnsw

variable [DecidableEq F]

/-- Whether the snapshot was built from another state. -/
def isStale (identity : HnswIdentity) (expected : F) : DecodedSnapshot F → Bool
  | .legacy fingerprint collectionId metric config _ =>
      fingerprint ≠ expected || collectionId ≠ identity.checkpoint.collectionId ||
        metric ≠ identity.metric || config ≠ identity.config
  | .native fingerprint graph =>
      fingerprint ≠ expected || graph.collectionId ≠ identity.checkpoint.collectionId ||
        graph.metric ≠ identity.metric || graph.config ≠ identity.config

def restore : DecodedSnapshot F → Except HnswSnapshotError HnswIndex
  | .legacy _ collectionId metric config records =>
      restoreIndex S collectionId metric config records
  | .native _ graph => (HnswIndex.fromNativeGraph S graph).mapError .hnsw

/-- `HnswIndexStore::load` on the content of the snapshot file. -/
def load (fingerprint : HnswIdentity → F) (identity : HnswIdentity) :
    Option (DecodedSnapshot F) → Except HnswSnapshotError HnswLoadResult
  | none => .ok .missing
  | some snapshot => do
    read S snapshot
    if snapshot.isStale identity (fingerprint identity) then pure .stale
    else do
      let index ← snapshot.restore S
      pure (.loaded index)

end Load

section Correct

variable {S : Type} [ScoreArith S] {F : Type} [DecidableEq F] {fingerprint : HnswIdentity → F}
  {identity : HnswIdentity}

/-- A stored graph is loaded only under its own fingerprint. -/
theorem load_native {stored : F} {graph index : HnswIndex}
    (h : load S fingerprint identity (some (.native stored graph)) = .ok (.loaded index)) :
    index = graph ∧ stored = fingerprint identity := by
  obtain ⟨⟨⟩, -, h⟩ := except_bind_ok.mp h
  by_cases hstale : isStale identity (fingerprint identity) (native stored graph)
  · rw [if_pos hstale] at h
    cases h
  · rw [if_neg hstale] at h
    obtain ⟨other, hother, h⟩ := except_bind_ok.mp h
    cases h
    refine ⟨HnswIndex.fromNativeGraph_ok (mapError_ok_iff.mp hother), ?_⟩
    by_contra hne
    exact hstale (by simp [isStale, hne])

end Correct

end DecodedSnapshot

end Ketebe
