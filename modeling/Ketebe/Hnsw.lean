import Ketebe.Lib.ByteCodec
import Ketebe.Search

/-!
The HNSW index: a layered graph over the visible records. Inserting a record
searches the layers from the top and links it to its nearest neighbours;
searching descends greedily to layer 0 and explores it from there. Panics of
the source (an index out of bounds, an unscorable vector) are errors here, and
so is a loop that runs out of the iterations it is given.
-/
namespace Ketebe

open Lib.ByteCodec

structure HnswConfig where
  m : ℕ
  efConstruction : ℕ
  efSearch : ℕ
  deriving DecidableEq, Repr

inductive HnswError where
  | invalidConfig (message : String)
  | invalidTopK
  | efSearchTooSmall (efSearch topK : ℕ)
  | emptyQueryVector
  | nonFiniteQueryValue (index : ℕ)
  | dimensionMismatch (expected actual : ℕ)
  | zeroNormVector
  | exactSearch (message : String)
  | invalidGraph (message : String)
  | control (error : QueryControlError)
  | panicked (message : String)
  deriving DecidableEq, Repr

namespace HnswConfig

def default : HnswConfig := ⟨16, 64, 64⟩

def validate (config : HnswConfig) : Except HnswError HnswConfig :=
  if config.m = 0 then .error (.invalidConfig "m must be greater than zero")
  else if config.efConstruction < config.m then
    .error (.invalidConfig "ef_construction must be >= m")
  else if config.efSearch = 0 then
    .error (.invalidConfig "ef_search must be greater than zero")
  else .ok config

theorem validate_ok_iff {config validated : HnswConfig} : config.validate = .ok validated ↔
    validated = config ∧ 0 < config.m ∧ config.m ≤ config.efConstruction ∧ 0 < config.efSearch := by
  unfold validate
  split
  · simp_all
  · split
    · simp only [reduceCtorEq, false_iff]
      omega
    · split
      · simp only [reduceCtorEq, false_iff]
        omega
      · simp only [Except.ok.injEq]
        constructor
        · rintro rfl
          exact ⟨rfl, by omega, by omega, by omega⟩
        · rintro ⟨rfl, -⟩
          rfl

end HnswConfig

/-- A node has one list of neighbours for each of its layers. -/
structure HnswNode where
  record : Record
  level : ℕ
  neighbors : List (List ℕ)

structure HnswHit (S : Type) where
  record : Record
  score : S

/-- The graph, in memory and as the snapshot stores it. -/
structure HnswIndex where
  collectionId : CollectionId
  metric : DistanceMetric
  config : HnswConfig
  dimension : Option ℕ
  nodes : List HnswNode
  entryPoint : Option ℕ
  maxLevel : ℕ

namespace HnswIndex

def records (index : HnswIndex) : List Record := index.nodes.map HnswNode.record

/-- FNV-1a over a tag and the bytes of the id. -/
def levelHash (id : RecordId) : UInt64 :=
  let bytes : Bytes := match id with
    | .string value _ => 0 :: utf8 value
    | .unsigned value => 1 :: leBytes 8 value.toNat
  bytes.foldl (fun hash byte => (hash ^^^ byte.toUInt64) * 0x100000001b3) 0xcbf29ce484222325

def trailingZeros (value : UInt64) : ℕ := (List.range 64).findIdx fun bit => value.toNat.testBit bit

def deterministicLevel (id : RecordId) : ℕ := min (trailingZeros (levelHash id) / 2) 16

def outOfBounds : HnswError := .panicked "index out of bounds"

def outOfIterations : HnswError := .panicked "out of iterations"

/-- Checked indexing. -/
def getNode (index : HnswIndex) (position : ℕ) : Except HnswError HnswNode :=
  match index.nodes[position]? with
  | some node => .ok node
  | none => .error outOfBounds

def getNeighbors (index : HnswIndex) (position layer : ℕ) : Except HnswError (List ℕ) := do
  let node ← index.getNode position
  match node.neighbors[layer]? with
  | some neighbors => pure neighbors
  | none => throw outOfBounds

def setNeighbors (index : HnswIndex) (position layer : ℕ) (neighbors : List ℕ) : HnswIndex :=
  { index with
    nodes := index.nodes.modify position fun node =>
      { node with neighbors := node.neighbors.set layer neighbors } }

section Distance

variable {S : Type} [ScoreArith S]

def distance (query vector : List F32) (metric : DistanceMetric) : Except HnswError S :=
  if query.length ≠ vector.length then .error (.dimensionMismatch vector.length query.length)
  else match metric with
    | .l2 => .ok (l2 query vector)
    | .dot => .ok (ScoreArith.neg (dot query vector))
    | .cosine =>
        match cosine query vector with
        | some value => .ok (ScoreArith.neg value)
        | none => .error .zeroNormVector

def score (query vector : List F32) (metric : DistanceMetric) : Except HnswError S :=
  match metric with
  | .l2 => .ok (l2 query vector)
  | .dot => .ok (dot query vector)
  | .cosine =>
      match cosine query vector with
      | some value => .ok value
      | none => .error .zeroNormVector

def nodeDistance (index : HnswIndex) (query : List F32) (position : ℕ) : Except HnswError S := do
  let node ← index.getNode position
  distance query node.record.vector.values index.metric

/-- What `compare_node_distance` compares, by distance and then by record id. -/
abbrev Rank (S : Type) := S × RecordId

def compareRank (left right : Rank S) : Ordering :=
  (compare left.1 right.1).then (compare left.2 right.2)

def rank (index : HnswIndex) (query : List F32) (position : ℕ) : Except HnswError (Rank S) := do
  let node ← index.getNode position
  match index.nodeDistance query position with
  | .ok value => pure (value, node.record.id)
  | .error _ => throw (.panicked "validated vectors must be scorable")

/-- The ranks of the candidates. A comparison takes place, and can panic, only
when there are two of them. -/
def ranked (S : Type) [ScoreArith S] (index : HnswIndex) (query : List F32)
    (candidates : List ℕ) : Except HnswError (List (Rank S × ℕ)) :=
  candidates.mapM fun position => do
    let value ← index.rank query position
    pure (value, position)

def sortByDistance (S : Type) [ScoreArith S] (index : HnswIndex) (query : List F32)
    (candidates : List ℕ) : Except HnswError (List ℕ) :=
  if candidates.length < 2 then pure candidates
  else do
    let entries ← ranked S index query candidates
    let sorted := entries.mergeSort fun left right => (compareRank left.1 right.1).isLE
    pure (sorted.map Prod.snd)

/-- The position of the first smallest rank. -/
def minPosition (entries : List (Rank S × ℕ)) : ℕ :=
  entries.findIdx fun entry => entries.all fun other => (compareRank entry.1 other.1).isLE

/-- The position of the nearest candidate. -/
def nearest (S : Type) [ScoreArith S] (index : HnswIndex) (query : List F32)
    (candidates : List ℕ) : Except HnswError ℕ :=
  if candidates.length < 2 then pure 0
  else do
    let entries ← ranked S index query candidates
    pure (minPosition entries)

def swapRemove (values : List ℕ) (position : ℕ) : List ℕ :=
  match values.getLast? with
  | some last => (values.set position last).dropLast
  | none => values

def popNearest (S : Type) [ScoreArith S] (index : HnswIndex) (query : List F32)
    (frontier : List ℕ) : Except HnswError (Option (ℕ × List ℕ)) := do
  let position ← nearest S index query frontier
  match frontier[position]? with
  | some current => pure (some (current, swapRemove frontier position))
  | none => pure none

def selectNeighbors (S : Type) [ScoreArith S] (index : HnswIndex) (query : List F32)
    (candidates : List ℕ) (limit : ℕ) : Except HnswError (List ℕ) := do
  let sorted ← sortByDistance S index query candidates
  pure ((Lib.SortedSet.dedupConsecutive sorted).take limit)

/-! ### Searching a layer -/

def checkControl (control : QueryControl) : Except HnswError Unit := control.check.mapError .control

/-- Whether the candidate is nearer, or as near with a smaller id. -/
def improves (candidate current : Rank S) : Bool :=
  ScoreArith.lessThan candidate.1 current.1 ||
    (decide (candidate.1 = current.1) && decide (candidate.2 < current.2))

def rankOf (S : Type) [ScoreArith S] (index : HnswIndex) (query : List F32) (position : ℕ) :
    Except HnswError (Rank S) := do
  let value ← index.nodeDistance query position
  let node ← index.getNode position
  pure (value, node.record.id)

/-- The loop of `greedy_search_level_controlled`. -/
def greedySearchLoop (S : Type) [ScoreArith S] (index : HnswIndex) (query : List F32) (layer : ℕ)
    (control : QueryControl) : ℕ → ℕ → Except HnswError ℕ
  | 0, _ => throw outOfIterations
  | iterations + 1, current => do
    checkControl control
    let currentRank ← rankOf S index query current
    let neighbors ← index.getNeighbors current layer
    let position ← nearest S index query neighbors
    match neighbors[position]? with
    | none => pure current
    | some candidate => do
      let candidateRank ← rankOf S index query candidate
      if improves candidateRank currentRank then
        greedySearchLoop S index query layer control iterations candidate
      else pure current

def greedySearchLevelControlled (S : Type) [ScoreArith S] (index : HnswIndex) (query : List F32)
    (current layer : ℕ) (control : QueryControl) : Except HnswError ℕ :=
  greedySearchLoop S index query layer control index.nodes.length current

structure LayerSearch where
  visited : List ℕ
  frontier : List ℕ
  best : List ℕ

def visitNeighbor (S : Type) [ScoreArith S] (index : HnswIndex) (query : List F32) (ef : ℕ)
    (state : LayerSearch) (neighbor : ℕ) : Except HnswError LayerSearch :=
  if neighbor ∈ state.visited then pure state
  else do
    let best ← sortByDistance S index query (state.best ++ [neighbor])
    pure ⟨neighbor :: state.visited, state.frontier ++ [neighbor], best.take ef⟩

/-- Whether the best hits are full and all nearer than the current node. -/
def isExhausted (S : Type) [ScoreArith S] (index : HnswIndex) (query : List F32) (ef : ℕ)
    (best : List ℕ) (current : ℕ) : Except HnswError Bool := do
  let worst : Option S ← match best.getLast? with
    | some last => some <$> index.nodeDistance query last
    | none => pure none
  if ef ≤ best.length then do
    let value : S ← index.nodeDistance query current
    pure (worst.any fun worst => ScoreArith.lessThan worst value)
  else pure false

/-- The loop of `search_layer_controlled`. -/
def searchLayerLoop (S : Type) [ScoreArith S] (index : HnswIndex) (query : List F32)
    (ef layer : ℕ) (control : QueryControl) : ℕ → LayerSearch → Except HnswError (List ℕ)
  | 0, _ => throw outOfIterations
  | iterations + 1, state => do
    match ← popNearest S index query state.frontier with
    | none => pure state.best
    | some (current, frontier) => do
      checkControl control
      let exhausted ← isExhausted S index query ef state.best current
      if exhausted then pure state.best
      else do
        let neighbors ← index.getNeighbors current layer
        let next ← neighbors.foldlM (visitNeighbor S index query ef) { state with frontier := frontier }
        searchLayerLoop S index query ef layer control iterations next

def searchLayerControlled (S : Type) [ScoreArith S] (index : HnswIndex) (query : List F32)
    (entry ef layer : ℕ) (control : QueryControl) : Except HnswError (List ℕ) := do
  checkControl control
  searchLayerLoop S index query ef layer control (index.nodes.length + 1) ⟨[entry], [entry], [entry]⟩

def descendLayer (S : Type) [ScoreArith S] (index : HnswIndex) (query : List F32)
    (control : QueryControl) (current layer : ℕ) : Except HnswError ℕ := do
  checkControl control
  greedySearchLevelControlled S index query current layer control

/-- The greedy descent through the given layers. -/
def descend (S : Type) [ScoreArith S] (index : HnswIndex) (query : List F32)
    (control : QueryControl) (entry : ℕ) (layers : List ℕ) : Except HnswError ℕ :=
  layers.foldlM (descendLayer S index query control) entry

/-! ### Building -/

def connect (S : Type) [ScoreArith S] (index : HnswIndex) (newIndex layer existing : ℕ) :
    Except HnswError HnswIndex := do
  let node ← index.getNode existing
  if node.level < layer then pure index
  else do
    let neighbors ← index.getNeighbors existing layer
    let candidates := if newIndex ∈ neighbors then neighbors else neighbors ++ [newIndex]
    let selected ← selectNeighbors S index node.record.vector.values candidates index.config.m
    pure (index.setNeighbors existing layer selected)

/-- Links the new node on one layer; `current` is where the layer is entered. -/
def linkLayer (S : Type) [ScoreArith S] (newIndex : ℕ) (query : List F32)
    (state : HnswIndex × ℕ) (layer : ℕ) : Except HnswError (HnswIndex × ℕ) := do
  let (index, current) := state
  let candidates ←
    searchLayerControlled S index query current index.config.efConstruction layer .unbounded
  let selected ← selectNeighbors S index query candidates index.config.m
  let _ ← index.getNeighbors newIndex layer
  let linked ← selected.foldlM (fun index existing => connect S index newIndex layer existing)
    (index.setNeighbors newIndex layer selected)
  pure (linked, selected.headD current)

/-- The layers from `high` down to `low`. -/
def layersDown (low high : ℕ) : List ℕ := (List.range' low (high + 1 - low)).reverse

/-- The graph with the new node before it is linked. -/
def withNode (index : HnswIndex) (record : Record) : HnswIndex :=
  let level := deterministicLevel record.id
  { index with nodes := index.nodes ++ [⟨record, level, List.replicate (level + 1) []⟩] }

/-- Links the new node, starting from the entry point. -/
def insertFrom (S : Type) [ScoreArith S] (index : HnswIndex) (record : Record) (entry : ℕ) :
    Except HnswError HnswIndex := do
  let level := deterministicLevel record.id
  let newIndex := index.nodes.length
  let query := record.vector.values
  let added := index.withNode record
  let current ← descend S added query .unbounded entry (layersDown (level + 1) index.maxLevel)
  let linked ← (layersDown 0 (min level index.maxLevel)).foldlM
    (linkLayer S newIndex query) (added, current)
  pure (if index.maxLevel < level then
    { linked.1 with entryPoint := some newIndex, maxLevel := level } else linked.1)

def insert (S : Type) [ScoreArith S] (index : HnswIndex) (record : Record) :
    Except HnswError HnswIndex :=
  match index.entryPoint with
  | none => pure { index.withNode record with
      entryPoint := some index.nodes.length, maxLevel := deterministicLevel record.id }
  | some entry => insertFrom S index record entry

/-- The check of one record before the graph is built. -/
def checkRecord (S : Type) [ScoreArith S] (metric : DistanceMetric) (dimension : ℕ)
    (record : Record) : Except HnswError Unit :=
  if record.vector.length ≠ dimension then
    .error (.dimensionMismatch dimension record.vector.length)
  else if metric = .cosine ∧ hasZeroNorm S record.vector.values then .error .zeroNormVector
  else .ok ()

def build (S : Type) [ScoreArith S] (segments : List Segment) (collectionId : CollectionId)
    (metric : DistanceMetric) (config : HnswConfig) : Except HnswError HnswIndex := do
  let config ← config.validate
  let records := (visibleRecords segments collectionId).mergeSort fun left right =>
    left.id ≤ right.id
  let dimension := records.head?.map fun record => record.vector.length
  records.forM (checkRecord S metric (dimension.getD 0))
  records.foldlM (insert S) ⟨collectionId, metric, config, dimension, [], none, 0⟩

/-! ### Queries -/

def validateQuery (S : Type) [ScoreArith S] (index : HnswIndex) (query : List F32) (topK : ℕ) :
    Except HnswError Unit :=
  if topK = 0 then .error .invalidTopK
  else if index.config.efSearch < topK then
    .error (.efSearchTooSmall index.config.efSearch topK)
  else if query = [] then .error .emptyQueryVector
  else match firstNonFinite 0 query with
    | some position => .error (.nonFiniteQueryValue position)
    | none =>
        match index.dimension.filter (fun expected => query.length ≠ expected) with
        | some expected => .error (.dimensionMismatch expected query.length)
        | none =>
            if index.metric = .cosine ∧ hasZeroNorm S query then .error .zeroNormVector
            else .ok ()

def compareHits (metric : DistanceMetric) (left right : HnswHit S) : Ordering :=
  compareScoreAndId metric left.score left.record.id right.score right.record.id

/-- Scores the candidates; the control is checked at every 64th of them. -/
def collectHits (S : Type) [ScoreArith S] (index : HnswIndex) (query : List F32)
    (control : QueryControl) : ℕ → List ℕ → Except HnswError (List (HnswHit S))
  | _, [] => pure []
  | position, candidate :: rest => do
    (Search.checkEvery 64 position control).mapError HnswError.control
    let node ← index.getNode candidate
    let value ← (score query node.record.vector.values index.metric).mapError
      fun _ => HnswError.panicked "validated vectors must be scorable"
    let hits ← collectHits S index query control (position + 1) rest
    pure (⟨node.record, value⟩ :: hits)

def searchFrom (S : Type) [ScoreArith S] (index : HnswIndex) (query : List F32) (topK entry : ℕ)
    (control : QueryControl) : Except HnswError (List (HnswHit S)) := do
  let current ← descend S index query control entry (layersDown 1 index.maxLevel)
  let candidates ←
    searchLayerControlled S index query current index.config.efSearch 0 control
  let hits ← collectHits S index query control 0 candidates
  checkControl control
  pure ((hits.mergeSort fun left right => (compareHits index.metric left right).isLE).take topK)

def searchWithControl (S : Type) [ScoreArith S] (index : HnswIndex) (query : List F32) (topK : ℕ)
    (control : QueryControl) : Except HnswError (List (HnswHit S)) := do
  checkControl control
  index.validateQuery S query topK
  match index.entryPoint with
  | none => pure []
  | some entry => searchFrom S index query topK entry control

end Distance

end HnswIndex

end Ketebe
