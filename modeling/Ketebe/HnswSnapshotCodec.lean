import Ketebe.HnswEdges
import Ketebe.HnswSnapshot
import Ketebe.RecordSizes

/-!
The snapshot file of a graph. A built graph passes the checks of a stored one
unless its vectors are empty, and decoding inverts its encoding.
-/
namespace Ketebe

open Lib.ByteCodec

namespace HnswIndex

section Checks

variable {S : Type} [ScoreArith S] {index : HnswIndex}

theorem not_mem_take_of_nodup {values : List ℕ} {position value : ℕ} (h : values.Nodup)
    (hvalue : values[position]? = some value) : value ∉ values.take position := by
  intro hmem
  obtain ⟨other, hother⟩ := List.mem_iff_getElem?.mp hmem
  rw [List.getElem?_take] at hother
  split at hother
  · rename_i hlt
    have hbound := (List.getElem?_eq_some_iff.mp hvalue).1
    have heq := (List.getElem?_inj (by omega) h).mp (hother.trans hvalue.symm)
    omega
  · cases hother

theorem foldl_max_le_iff {values : List ℕ} {start bound : ℕ} :
    values.foldl max start ≤ bound ↔ start ≤ bound ∧ ∀ value ∈ values, value ≤ bound := by
  induction values generalizing start with
  | nil => simp
  | cons head rest ih =>
    rw [List.foldl_cons, ih, List.forall_mem_cons, max_le_iff, and_assoc]

theorem foldl_max_eq {values : List ℕ} {bound : ℕ} (hmem : bound ∈ values)
    (hle : ∀ value ∈ values, value ≤ bound) : values.foldl max 0 = bound := by
  apply le_antisymm
  · exact foldl_max_le_iff.mpr ⟨Nat.zero_le _, hle⟩
  · exact (foldl_max_le_iff.mp (le_refl (values.foldl max 0))).2 bound hmem

variable {dimension m : ℕ}

theorem checkLayer_ok (hvalid : index.Valid S dimension) (hwired : index.Wired m)
    {position layer : ℕ} {neighbors : List ℕ}
    (hneighbors : index.getNeighbors position layer = .ok neighbors) :
    checkLayer index position neighbors layer = .ok () := by
  obtain ⟨node, hnode, hlist⟩ := getNeighbors_ok_iff.mp hneighbors
  obtain ⟨hdistinct, hself, -⟩ := hwired position layer neighbors hneighbors
  rw [checkLayer, except_forM_ok]
  intro place _
  unfold checkEdge
  cases hneighbor : neighbors[place]? with
  | none => rfl
  | some neighbor =>
    have hmem := List.mem_of_getElem? hneighbor
    obtain ⟨target, htarget, hlevel⟩ :=
      hvalid.edges node (List.mem_of_getElem? hnode) layer neighbors hlist neighbor hmem
    have hother : neighbor ≠ position := fun heq => hself (heq ▸ hmem)
    simp only [htarget]
    rw [if_neg hother, if_neg (not_lt.mpr hlevel),
      if_neg (not_mem_take_of_nodup hdistinct hneighbor)]

theorem checkNode_ok (hvalid : index.Valid S dimension) (hwired : index.Wired m)
    {position : ℕ} {node : HnswNode} (hnode : index.nodes[position]? = some node) :
    checkNode S index dimension node position = .ok () := by
  have hmem := List.mem_of_getElem? hnode
  obtain ⟨hvector, hnorm⟩ := hvalid.comparable node hmem
  have hlength : node.record.vector.length = dimension := hvector
  have hzero : ¬(index.metric = .cosine ∧ hasZeroNorm S node.record.vector.values) :=
    fun h => hnorm h.1 h.2
  rw [checkNode, if_neg (not_not.mpr hlength), if_neg hzero,
    if_neg (not_not.mpr (hvalid.layers node hmem)), except_forM_ok]
  rintro ⟨neighbors, layer⟩ hlayer
  have hlist := List.mk_mem_zipIdx_iff_getElem?.mp hlayer
  exact checkLayer_ok hvalid hwired (getNeighbors_ok_iff.mpr ⟨node, hnode, hlist⟩)

theorem checkEntry_ok (hshaped : index.Shaped m) {entry : ℕ}
    (hentry : index.InLayer index.maxLevel entry) : checkEntry index entry = .ok () := by
  obtain ⟨node, hnode, hlevel⟩ := hentry
  have hmem := List.mem_of_getElem? hnode
  have htop : node.level = index.maxLevel := le_antisymm (hshaped.levels node hmem) hlevel
  have hmax : (index.nodes.map HnswNode.level).foldl max 0 = index.maxLevel := by
    apply foldl_max_eq (htop ▸ List.mem_map_of_mem hmem)
    intro level hlevel
    obtain ⟨other, hother, rfl⟩ := List.mem_map.mp hlevel
    exact hshaped.levels other hother
  unfold checkEntry
  simp only [hnode]
  rw [if_neg (by simp [hmax, htop])]

/-- A built graph is accepted unless its vectors are empty. -/
theorem fromNativeGraph_built_iff {segments : List Segment} {id : CollectionId}
    {metric : DistanceMetric} {config : HnswConfig}
    (hindex : IndexOf S index segments id metric config) (hshaped : index.Shaped m) :
    fromNativeGraph S index = .ok index ↔
      ∀ record ∈ index.records, record.vector.values ≠ [] := by
  have hconfig : index.config.validate = .ok index.config := by
    rw [hindex.sameConfig]
    exact hindex.validated
  have hcheck : fromNativeGraph S index = ((if index.nodes = [] then checkEmpty index
      else checkNonEmpty S index) >>= fun _ => pure index) := by
    rw [fromNativeGraph, hconfig, except_ok_bind]
    split <;> rfl
  rw [hcheck]
  rcases hnodes : index.nodes with _ | ⟨first, rest⟩
  · have hentry : index.entryPoint = none := by
      cases hentry : index.entryPoint with
      | none => rfl
      | some entry =>
        have hlt := (hindex.built.entry entry hentry).lt
        rw [hnodes] at hlt
        cases hlt
    have hdimension : index.dimension = none := by
      rw [hindex.dimension, records, hnodes]
      rfl
    have hempty : checkEmpty index = .ok () := by
      rw [checkEmpty, if_neg (by simp [hentry, hdimension, hshaped.bottom hnodes])]
    rw [if_pos rfl, hempty, records, hnodes]
    exact ⟨fun _ _ hrecord => absurd hrecord List.not_mem_nil, fun _ => rfl⟩
  · have hdimension : index.dimension = some first.record.vector.length := by
      rw [hindex.dimension, records, hnodes]
      rfl
    have hvalid := hindex.built.valid
    rw [hdimension] at hvalid
    rw [if_neg (List.cons_ne_nil _ _)]
    obtain ⟨entry, hentry⟩ : ∃ entry, index.entryPoint = some entry := by
      cases hentry : index.entryPoint with
      | none =>
        rw [hindex.built.empty hentry] at hnodes
        cases hnodes
      | some entry => exact ⟨entry, rfl⟩
    have hentryOk := checkEntry_ok hshaped (hindex.built.entry entry hentry)
    have hnodesOk : (index.nodes.zipIdx.forM fun entry =>
        checkNode S index first.record.vector.length entry.1 entry.2) = .ok () := by
      rw [except_forM_ok]
      rintro ⟨node, position⟩ hnode
      exact checkNode_ok hvalid hshaped.wired (List.mk_mem_zipIdx_iff_getElem?.mp hnode)
    have hlengths : ∀ record ∈ index.records,
        record.vector.length = first.record.vector.length := by
      intro record hrecord
      obtain ⟨node, hnode, rfl⟩ := List.mem_map.mp hrecord
      exact (hvalid.comparable node hnode).1
    cases hlength : first.record.vector.length with
    | zero =>
      have hzero : checkNonEmpty S index = .error (.invalidGraph "graph dimension is zero") := by
        simp only [checkNonEmpty, hdimension, hlength]
      rw [hzero]
      refine ⟨fun h => (by cases h), fun hall => ?_⟩
      have hfirst : first.record ∈ index.records := by
        rw [records, hnodes]
        exact List.mem_cons_self ..
      exact absurd (List.eq_nil_of_length_eq_zero hlength) (hall _ hfirst)
    | succ length =>
      rw [hlength] at hnodesOk
      have hok : checkNonEmpty S index = .ok () := by
        simp only [checkNonEmpty, hdimension, hlength, hentry, hentryOk, except_ok_bind]
        exact hnodesOk
      rw [hok]
      refine ⟨fun _ record hrecord hempty => ?_, fun _ => rfl⟩
      have hzero := hlengths record hrecord
      rw [hlength, Vector.length, hempty] at hzero
      cases hzero

end Checks

end HnswIndex

/-! ### The file -/

namespace HnswSnapshotFile

def magic : Bytes := [0x4b, 0x54, 0x48, 0x49]

def nativeVersion : UInt8 := 2

def headerLen : ℕ := 20

structure HnswNativeSnapshot where
  fingerprint : UInt64
  graph : HnswIndex

/-- The snapshot's texts for what the cursor of the log reports. -/
def cursorText (message : String) : String :=
  if message = "unexpected payload end" then "truncated payload"
  else if message = "invalid UTF-8" then "invalid UTF-8 string"
  else if message = "invalid record id tag" then "unknown record ID tag"
  else if message = "invalid boolean" then "invalid bool value"
  else if message = "invalid metadata tag" then "unknown metadata tag"
  else message

/-- The snapshot codes strings and records as the log does. These coders raise
no other errors than the first two. -/
def ofWal : WalError → HnswSnapshotError
  | .corruptFrame message => .corrupt (cursorText message)
  | .domain message => .invalidValue message
  | _ => .io

def writeLen (message : String) (len : ℕ) : Except HnswSnapshotError Bytes :=
  (Wal.writeLen message len).mapError ofWal

def writeString (value : String) : Except HnswSnapshotError Bytes :=
  (Wal.writeString value).mapError ofWal

def writeUsize (value : ℕ) : Except HnswSnapshotError Bytes :=
  if value < 256 ^ 8 then .ok (leBytes 8 value) else .error (.corrupt "usize value too large")

/-- `None` is written as the largest word. -/
def optionWord : Option ℕ → ℕ
  | some value => if value < 256 ^ 8 then value else 256 ^ 8 - 2
  | none => 256 ^ 8 - 1

def writeAll {α : Type} (write : α → Except HnswSnapshotError Bytes) :
    List α → Except HnswSnapshotError Bytes
  | [] => pure []
  | value :: rest => do
    let head ← write value
    let tail ← writeAll write rest
    pure (head ++ tail)

def writeRecord (record : Record) : Except HnswSnapshotError Bytes := do
  let id ← (Wal.writeRecordId record.id).mapError ofWal
  let vector ← (Wal.writeVector record.vector).mapError ofWal
  let metadata ← (Wal.writeMetadata record.metadata).mapError ofWal
  pure (id ++ (leBytes 8 record.sequenceNumber.toNat ++ (vector ++ metadata)))

def writeLayer (neighbors : List ℕ) : Except HnswSnapshotError Bytes := do
  let len ← writeLen "too many HNSW neighbors" neighbors.length
  let body ← writeAll writeUsize neighbors
  pure (len ++ body)

def writeNode (node : HnswNode) : Except HnswSnapshotError Bytes := do
  let record ← writeRecord node.record
  let level ← writeUsize node.level
  let len ← writeLen "too many HNSW layers" node.neighbors.length
  let layers ← writeAll writeLayer node.neighbors
  pure (record ++ (level ++ (len ++ layers)))

def writeConfig (config : HnswConfig) : Except HnswSnapshotError Bytes := do
  let m ← writeUsize config.m
  let efConstruction ← writeUsize config.efConstruction
  let efSearch ← writeUsize config.efSearch
  pure (m ++ (efConstruction ++ efSearch))

def writeNodes (nodes : List HnswNode) : Except HnswSnapshotError Bytes := do
  let len ← writeLen "too many HNSW nodes" nodes.length
  let body ← writeAll writeNode nodes
  pure (len ++ body)

/-- The part of the payload behind the metric. -/
def writeGraph (graph : HnswIndex) : Except HnswSnapshotError Bytes := do
  let config ← writeConfig graph.config
  let maxLevel ← writeUsize graph.maxLevel
  let nodes ← writeNodes graph.nodes
  pure (config ++ (leBytes 8 (optionWord graph.dimension) ++
    (leBytes 8 (optionWord graph.entryPoint) ++ (maxLevel ++ nodes))))

def encodePayload (snapshot : HnswNativeSnapshot) : Except HnswSnapshotError Bytes := do
  let collection ← writeString snapshot.graph.collectionId.asStr
  let graph ← writeGraph snapshot.graph
  pure (leBytes 8 snapshot.fingerprint.toNat ++ (collection ++
    ([metricTag snapshot.graph.metric] ++ graph)))

def encodeHeader (payload : Bytes) : Bytes :=
  magic ++ [nativeVersion, 0, 0, 0] ++ leBytes 8 payload.length ++
    leBytes 4 (Wal.crc32 payload).toNat

def encodeNativeSnapshot (snapshot : HnswNativeSnapshot) : Except HnswSnapshotError Bytes := do
  let payload ← encodePayload snapshot
  if payload.length < 256 ^ 8 then
    pure (encodeHeader payload ++ payload)
  else throw (.corrupt "snapshot payload too large")

/-! ### Reading the file -/

def readU32 : Reader HnswSnapshotError ℕ := Wal.readU32.mapError ofWal

def readU64 : Reader HnswSnapshotError UInt64 := Wal.readU64.mapError ofWal

def readUsize : Reader HnswSnapshotError ℕ := do
  let value ← readU64
  pure value.toNat

def readString : Reader HnswSnapshotError String := Wal.readString.mapError ofWal

def readOption : Reader HnswSnapshotError (Option ℕ) := do
  let raw ← readU64
  pure (if raw.toNat = 256 ^ 8 - 1 then none else some raw.toNat)

def readMetric (value : UInt8) : Except HnswSnapshotError DistanceMetric :=
  if value = 0 then .ok .cosine
  else if value = 1 then .ok .dot
  else if value = 2 then .ok .l2
  else .error (.corrupt "unknown distance metric")

def readRecord : Reader HnswSnapshotError Record := do
  let id ← Wal.readRecordId.mapError ofWal
  let sequenceNumber ← readU64
  let vector ← Wal.readVector.mapError ofWal
  let metadata ← Wal.readMetadata.mapError ofWal
  pure ⟨id, vector, metadata, sequenceNumber⟩

def readLayer : Reader HnswSnapshotError (List ℕ) := do
  let count ← readU32
  Reader.times readUsize count

def readNode : Reader HnswSnapshotError HnswNode := do
  let record ← readRecord
  let level ← readUsize
  let count ← readU32
  let neighbors ← Reader.times readLayer count
  pure ⟨record, level, neighbors⟩

def readConfig : Reader HnswSnapshotError HnswConfig := do
  let m ← readUsize
  let efConstruction ← readUsize
  let efSearch ← readUsize
  Reader.check ((HnswConfig.validate ⟨m, efConstruction, efSearch⟩).mapError .hnsw)

def readNodes : Reader HnswSnapshotError (List HnswNode) := do
  let count ← readU32
  Reader.times readNode count

def readGraph (collectionId : CollectionId) (metric : DistanceMetric) :
    Reader HnswSnapshotError HnswIndex := do
  let config ← readConfig
  let dimension ← readOption
  let entryPoint ← readOption
  let maxLevel ← readUsize
  let nodes ← readNodes
  pure ⟨collectionId, metric, config, dimension, nodes, entryPoint, maxLevel⟩

def readCollectionId : Reader HnswSnapshotError CollectionId := do
  let name ← readString
  (Wal.liftDomain (CollectionId.new name)).mapError ofWal

def readTag : Reader HnswSnapshotError DistanceMetric := do
  let tag ← Wal.readU8.mapError ofWal
  Reader.check (readMetric tag)

def readSnapshot : Reader HnswSnapshotError HnswNativeSnapshot := do
  let fingerprint ← readU64
  let collectionId ← readCollectionId
  let metric ← readTag
  let graph ← readGraph collectionId metric
  pure ⟨fingerprint, graph⟩

def headerPayloadLen (bytes : Bytes) : ℕ := leValue ((bytes.drop 8).take 8)

def headerChecksum (bytes : Bytes) : UInt32 := UInt32.ofNat (leValue ((bytes.drop 16).take 4))

/-- The checks of the header, which return the payload. -/
def checkHeader (bytes : Bytes) : Except HnswSnapshotError Bytes :=
  if bytes.length < headerLen then .error (.corrupt "truncated header")
  else if bytes.take 4 ≠ magic then .error .invalidMagic
  else if bytes.getD 4 0 ≠ nativeVersion then .error (.unsupportedVersion (bytes.getD 4 0))
  else if 256 ^ 8 ≤ headerLen + headerPayloadLen bytes then
    .error (.corrupt "snapshot length overflow")
  else if bytes.length ≠ headerLen + headerPayloadLen bytes then
    .error (.corrupt "snapshot length mismatch")
  else if Wal.crc32 (bytes.drop headerLen) ≠ headerChecksum bytes then .error .checksumMismatch
  else .ok (bytes.drop headerLen)

def decodeNativeSnapshot (S : Type) [ScoreArith S] (bytes : Bytes) :
    Except HnswSnapshotError HnswNativeSnapshot := do
  let payload ← checkHeader bytes
  let (snapshot, rest) ← readSnapshot payload
  if rest ≠ [] then throw (.corrupt "trailing payload bytes")
  else do
    let _ ← (HnswIndex.fromNativeGraph S snapshot.graph).mapError .hnsw
    pure snapshot

/-! ### Reading inverts writing -/

theorem writeLen_ok {message : String} {len : ℕ} {bytes : Bytes}
    (h : writeLen message len = .ok bytes) : bytes = leBytes 4 len ∧ len < 256 ^ 4 :=
  Wal.writeLen_ok (mapError_ok_iff.mp h)

theorem readU32_reads {len : ℕ} (h : len < 256 ^ 4) : Reads readU32 (leBytes 4 len) len :=
  (Wal.readU32_reads len h).mapError ofWal

theorem readU64_reads (value : UInt64) : Reads readU64 (leBytes 8 value.toNat) value :=
  (Wal.readU64_reads value).mapError ofWal

theorem readWord_reads {value : ℕ} (h : value < 256 ^ 8) :
    Reads readU64 (leBytes 8 value) (UInt64.ofNat value) := by
  have hread := readU64_reads (UInt64.ofNat value)
  rwa [UInt64.toNat_ofNat_of_lt' (by omega)] at hread

theorem readUsize_reads {value : ℕ} {bytes : Bytes} (h : writeUsize value = .ok bytes) :
    Reads readUsize bytes value := by
  unfold writeUsize at h
  split at h
  · rename_i hlt
    cases h
    have hread := (readWord_reads hlt).map (f := UInt64.toNat)
    rwa [UInt64.toNat_ofNat_of_lt' (by omega)] at hread
  · cases h

/-- An option is read back unless its value is the word for `None`. -/
theorem readOption_reads {value : Option ℕ} (h : ∀ v, value = some v → v < 256 ^ 8 - 1) :
    Reads readOption (leBytes 8 (optionWord value)) value := by
  have hword : optionWord value < 256 ^ 8 := by
    unfold optionWord
    split
    · split <;> omega
    · omega
  have hread := (readWord_reads hword).map
    (f := fun raw => if raw.toNat = 256 ^ 8 - 1 then none else some raw.toNat)
  rw [UInt64.toNat_ofNat_of_lt' (by omega)] at hread
  cases value with
  | none => exact hread
  | some v =>
    have hlt := h v rfl
    have hsame : optionWord (some v) = v := if_pos (by omega)
    rw [hsame] at hread ⊢
    rwa [if_neg (by omega)] at hread

theorem writeAll_reads {α : Type} {reader : Reader HnswSnapshotError α}
    {write : α → Except HnswSnapshotError Bytes} {values : List α} {bytes : Bytes}
    (hreads : ∀ value ∈ values, ∀ encoding, write value = .ok encoding →
      Reads reader encoding value)
    (h : writeAll write values = .ok bytes) :
    Reads (Reader.times reader values.length) bytes values := by
  induction values generalizing bytes with
  | nil =>
    cases h
    exact Reads.pure []
  | cons value rest ih =>
    obtain ⟨head, hhead, h⟩ := except_bind_ok.mp h
    obtain ⟨tail, htail, h⟩ := except_bind_ok.mp h
    cases h
    exact (hreads value (List.mem_cons_self ..) head hhead).times_cons
      (ih (fun other hother => hreads other (List.mem_cons_of_mem _ hother)) htail)

theorem readRecord_reads {record : Record} {bytes : Bytes} (h : writeRecord record = .ok bytes) :
    Reads readRecord bytes record := by
  obtain ⟨id, hid, h⟩ := except_bind_ok.mp h
  obtain ⟨vector, hvector, h⟩ := except_bind_ok.mp h
  obtain ⟨metadata, hmetadata, h⟩ := except_bind_ok.mp h
  cases h
  have hid' := (Wal.readRecordId_reads (mapError_ok_iff.mp hid)).mapError ofWal
  have hvector' := (Wal.readVector_reads (mapError_ok_iff.mp hvector)).mapError ofWal
  have hmetadata' := (Wal.readMetadata_reads (mapError_ok_iff.mp hmetadata)).mapError ofWal
  exact hid'.bind ((readU64_reads record.sequenceNumber).bind (hvector'.bind hmetadata'.map))

theorem readLayer_reads {neighbors : List ℕ} {bytes : Bytes} (h : writeLayer neighbors = .ok bytes) :
    Reads readLayer bytes neighbors := by
  obtain ⟨len, hlen, h⟩ := except_bind_ok.mp h
  obtain ⟨body, hbody, h⟩ := except_bind_ok.mp h
  cases h
  obtain ⟨rfl, hlt⟩ := writeLen_ok hlen
  exact (readU32_reads hlt).bind (writeAll_reads (fun _ _ _ => readUsize_reads) hbody)

theorem readNode_reads {node : HnswNode} {bytes : Bytes} (h : writeNode node = .ok bytes) :
    Reads readNode bytes node := by
  obtain ⟨record, hrecord, h⟩ := except_bind_ok.mp h
  obtain ⟨level, hlevel, h⟩ := except_bind_ok.mp h
  obtain ⟨len, hlen, h⟩ := except_bind_ok.mp h
  obtain ⟨layers, hlayers, h⟩ := except_bind_ok.mp h
  cases h
  obtain ⟨rfl, hlt⟩ := writeLen_ok hlen
  exact (readRecord_reads hrecord).bind ((readUsize_reads hlevel).bind ((readU32_reads hlt).bind
    (writeAll_reads (fun _ _ _ => readLayer_reads) hlayers).map))

theorem readConfig_reads {config : HnswConfig} {bytes : Bytes}
    (hvalid : config.validate = .ok config) (h : writeConfig config = .ok bytes) :
    Reads readConfig bytes config := by
  obtain ⟨m, hm, h⟩ := except_bind_ok.mp h
  obtain ⟨efConstruction, hconstruction, h⟩ := except_bind_ok.mp h
  obtain ⟨efSearch, hsearch, h⟩ := except_bind_ok.mp h
  cases h
  exact (readUsize_reads hm).bind ((readUsize_reads hconstruction).bind
    ((readUsize_reads hsearch).check (by rw [hvalid]; rfl)))

theorem readNodes_reads {nodes : List HnswNode} {bytes : Bytes} (h : writeNodes nodes = .ok bytes) :
    Reads readNodes bytes nodes := by
  obtain ⟨len, hlen, h⟩ := except_bind_ok.mp h
  obtain ⟨body, hbody, h⟩ := except_bind_ok.mp h
  cases h
  obtain ⟨rfl, hlt⟩ := writeLen_ok hlen
  exact (readU32_reads hlt).bind (writeAll_reads (fun _ _ _ => readNode_reads) hbody)

theorem readMetric_metricTag (metric : DistanceMetric) :
    readMetric (metricTag metric) = .ok metric := by
  cases metric <;> rfl

theorem readGraph_reads {graph : HnswIndex} {bytes : Bytes}
    (hconfig : graph.config.validate = .ok graph.config)
    (hdimension : ∀ v, graph.dimension = some v → v < 256 ^ 8 - 1)
    (hentry : ∀ v, graph.entryPoint = some v → v < 256 ^ 8 - 1)
    (h : writeGraph graph = .ok bytes) :
    Reads (readGraph graph.collectionId graph.metric) bytes graph := by
  obtain ⟨config, hconfigBytes, h⟩ := except_bind_ok.mp h
  obtain ⟨maxLevel, hmaxLevel, h⟩ := except_bind_ok.mp h
  obtain ⟨nodes, hnodes, h⟩ := except_bind_ok.mp h
  cases h
  have hlast := (readNodes_reads hnodes).map (f := fun nodes =>
    (⟨graph.collectionId, graph.metric, graph.config, graph.dimension, nodes, graph.entryPoint,
      graph.maxLevel⟩ : HnswIndex))
  exact (readConfig_reads hconfig hconfigBytes).bind ((readOption_reads hdimension).bind
    ((readOption_reads hentry).bind ((readUsize_reads hmaxLevel).bind hlast)))

theorem readCollectionId_reads {collectionId : CollectionId} {bytes : Bytes}
    (h : writeString collectionId.asStr = .ok bytes) :
    Reads readCollectionId bytes collectionId := by
  have hname : Reads readString bytes collectionId.asStr :=
    (Wal.readString_reads (mapError_ok_iff.mp h)).mapError ofWal
  have hid := (Wal.liftDomain_reads (CollectionId.new_asStr collectionId)).mapError ofWal
  have hread := hname.bind (f := fun name =>
    (Wal.liftDomain (CollectionId.new name)).mapError ofWal) hid
  rwa [List.append_nil] at hread

theorem readTag_reads (metric : DistanceMetric) : Reads readTag [metricTag metric] metric :=
  ((Wal.readU8_reads (metricTag metric)).mapError ofWal).check (readMetric_metricTag metric)

theorem readSnapshot_reads {snapshot : HnswNativeSnapshot} {payload : Bytes}
    (hconfig : snapshot.graph.config.validate = .ok snapshot.graph.config)
    (hdimension : ∀ v, snapshot.graph.dimension = some v → v < 256 ^ 8 - 1)
    (hentry : ∀ v, snapshot.graph.entryPoint = some v → v < 256 ^ 8 - 1)
    (h : encodePayload snapshot = .ok payload) : Reads readSnapshot payload snapshot := by
  obtain ⟨collection, hcollection, h⟩ := except_bind_ok.mp h
  obtain ⟨graph, hgraph, h⟩ := except_bind_ok.mp h
  cases h
  have hlast := (readGraph_reads hconfig hdimension hentry hgraph).map
    (f := fun graph => (⟨snapshot.fingerprint, graph⟩ : HnswNativeSnapshot))
  exact (readU64_reads snapshot.fingerprint).bind ((readCollectionId_reads hcollection).bind
    ((readTag_reads snapshot.graph.metric).bind hlast))

theorem length_encodeHeader (payload : Bytes) : (encodeHeader payload).length = headerLen := by
  simp [encodeHeader, magic, headerLen]

theorem checkHeader_encoded {payload : Bytes} (hlength : payload.length < 256 ^ 8 - headerLen) :
    checkHeader (encodeHeader payload ++ payload) = .ok payload := by
  have htotal : (encodeHeader payload ++ payload).length = headerLen + payload.length := by
    rw [List.length_append, length_encodeHeader]
  have htail : (encodeHeader payload ++ payload).drop 8 =
      leBytes 8 payload.length ++ (leBytes 4 (Wal.crc32 payload).toNat ++ payload) := by
    simp only [encodeHeader, magic, List.append_assoc]
    rfl
  have hlen : headerPayloadLen (encodeHeader payload ++ payload) = payload.length := by
    rw [headerPayloadLen, htail, List.take_left' (length_leBytes 8 _), leValue_leBytes]
    omega
  have hdrop : (encodeHeader payload ++ payload).drop headerLen = payload :=
    List.drop_left' (length_encodeHeader payload)
  have hchecksum : headerChecksum (encodeHeader payload ++ payload) = Wal.crc32 payload := by
    have hword : (encodeHeader payload ++ payload).drop 16 =
        leBytes 4 (Wal.crc32 payload).toNat ++ payload := by
      have hsplit : (encodeHeader payload ++ payload).drop 16 =
          ((encodeHeader payload ++ payload).drop 8).drop 8 := by
        rw [List.drop_drop]
      rw [hsplit, htail, List.drop_left' (length_leBytes 8 _)]
    rw [headerChecksum, hword, List.take_left' (length_leBytes 4 _),
      leValue_leBytes 4 _ (Wal.crc32 payload).toNat_lt, UInt32.ofNat_toNat]
  have hmagic : (encodeHeader payload ++ payload).take 4 = magic := rfl
  have hversion : (encodeHeader payload ++ payload).getD 4 0 = nativeVersion := rfl
  rw [checkHeader, htotal, hlen, hdrop, hchecksum, hmagic, hversion, if_neg (by omega),
    if_neg (not_not.mpr rfl), if_neg (not_not.mpr rfl), if_neg (by omega),
    if_neg (not_not.mpr rfl), if_neg (not_not.mpr rfl)]

/-! ### Sizes -/

/-- Every count of the snapshot fits into 32 bits, and every `usize` and the file into 64. -/
structure Fits (snapshot : HnswNativeSnapshot) : Prop where
  collectionId : (utf8 snapshot.graph.collectionId.asStr).length < 256 ^ 4
  m : snapshot.graph.config.m < 256 ^ 8
  efConstruction : snapshot.graph.config.efConstruction < 256 ^ 8
  efSearch : snapshot.graph.config.efSearch < 256 ^ 8
  nodes : snapshot.graph.nodes.length < 256 ^ 4
  records : ∀ node ∈ snapshot.graph.nodes, RecordFits node.record
  layers : ∀ node ∈ snapshot.graph.nodes, node.neighbors.length < 256 ^ 4 ∧
    ∀ neighbors ∈ node.neighbors, neighbors.length < 256 ^ 4
  payload : ∀ payload, encodePayload snapshot = .ok payload → payload.length < 256 ^ 8 - headerLen

theorem writeAll_exists {α : Type} {write : α → Except HnswSnapshotError Bytes} {values : List α}
    (h : ∀ value ∈ values, ∃ bytes, write value = .ok bytes) :
    ∃ bytes, writeAll write values = .ok bytes := by
  induction values with
  | nil => exact ⟨[], rfl⟩
  | cons value rest ih =>
    obtain ⟨head, hhead⟩ := h value (List.mem_cons_self ..)
    obtain ⟨tail, htail⟩ := ih fun other hother => h other (List.mem_cons_of_mem _ hother)
    exact ⟨_, except_bind_ok.mpr ⟨head, hhead, except_bind_ok.mpr ⟨tail, htail, rfl⟩⟩⟩

theorem writeUsize_exists {value : ℕ} (h : value < 256 ^ 8) :
    ∃ bytes, writeUsize value = .ok bytes := ⟨_, if_pos h⟩

theorem lift_exists {α : Type} {result : Except WalError α} (h : ∃ value, result = .ok value) :
    ∃ value, result.mapError ofWal = .ok value := by
  obtain ⟨value, hvalue⟩ := h
  exact ⟨value, mapError_ok_iff.mpr hvalue⟩

theorem writeRecord_exists {record : Record} (h : RecordFits record) :
    ∃ bytes, writeRecord record = .ok bytes := by
  obtain ⟨id, hid⟩ := lift_exists (Wal.writeRecordId_exists h.id)
  obtain ⟨vector, hvector⟩ := lift_exists (Wal.writeVector_exists h.vector)
  obtain ⟨metadata, hmetadata⟩ := lift_exists (Wal.writeMetadata_exists h.metadata)
  exact ⟨_, except_bind_ok.mpr ⟨id, hid, except_bind_ok.mpr ⟨vector, hvector,
    except_bind_ok.mpr ⟨metadata, hmetadata, rfl⟩⟩⟩⟩

section Built

variable {S : Type} [ScoreArith S] {index : HnswIndex} {dimension m : ℕ}

theorem writeNode_exists (hvalid : index.Valid S dimension) (hnodes : index.nodes.length < 256 ^ 4)
    {node : HnswNode} (hnode : node ∈ index.nodes) (hrecord : RecordFits node.record)
    (hlayers : node.neighbors.length < 256 ^ 4 ∧
      ∀ neighbors ∈ node.neighbors, neighbors.length < 256 ^ 4) :
    ∃ bytes, writeNode node = .ok bytes := by
  have hlevel := hvalid.layers node hnode
  obtain ⟨record, hrecord⟩ := writeRecord_exists hrecord
  obtain ⟨level, hlevelBytes⟩ := @writeUsize_exists node.level (by omega)
  obtain ⟨len, hlen⟩ := lift_exists (Wal.writeLen_exists "too many HNSW layers" hlayers.1)
  obtain ⟨layers, hlayersBytes⟩ : ∃ bytes, writeAll writeLayer node.neighbors = .ok bytes := by
    apply writeAll_exists
    intro neighbors hneighbors
    obtain ⟨layer, hlayer⟩ := List.mem_iff_getElem?.mp hneighbors
    obtain ⟨count, hcount⟩ :=
      lift_exists (Wal.writeLen_exists "too many HNSW neighbors" (hlayers.2 neighbors hneighbors))
    obtain ⟨body, hbody⟩ : ∃ bytes, writeAll writeUsize neighbors = .ok bytes := by
      apply writeAll_exists
      intro neighbor hneighbor
      have hlt := (hvalid.edges node hnode layer neighbors hlayer neighbor hneighbor).lt
      exact writeUsize_exists (by omega)
    exact ⟨_, except_bind_ok.mpr ⟨count, hcount, except_bind_ok.mpr ⟨body, hbody, rfl⟩⟩⟩
  exact ⟨_, except_bind_ok.mpr ⟨record, hrecord, except_bind_ok.mpr ⟨level, hlevelBytes,
    except_bind_ok.mpr ⟨len, hlen, except_bind_ok.mpr ⟨layers, hlayersBytes, rfl⟩⟩⟩⟩⟩

variable {segments : List Segment} {id : CollectionId} {metric : DistanceMetric}
  {config : HnswConfig} {fingerprint : UInt64}

theorem maxLevel_lt (hindex : HnswIndex.IndexOf S index segments id metric config)
    (hshaped : index.Shaped m) (hfits : Fits ⟨fingerprint, index⟩) : index.maxLevel < 256 ^ 8 := by
  cases hentry : index.entryPoint with
  | none =>
    rw [hshaped.bottom (hindex.built.empty hentry)]
    omega
  | some entry =>
    obtain ⟨node, hnode, hlevel⟩ := hindex.built.entry entry hentry
    have hmem := List.mem_of_getElem? hnode
    have hlayers := hindex.built.valid.layers node hmem
    have hbound := (hfits.layers node hmem).1
    omega

theorem encodePayload_exists (hindex : HnswIndex.IndexOf S index segments id metric config)
    (hshaped : index.Shaped m) (hfits : Fits ⟨fingerprint, index⟩) :
    ∃ payload, encodePayload ⟨fingerprint, index⟩ = .ok payload := by
  obtain ⟨collection, hcollection⟩ := lift_exists (Wal.writeString_exists hfits.collectionId)
  obtain ⟨config, hconfig⟩ : ∃ bytes, writeConfig index.config = .ok bytes := by
    obtain ⟨m, hm⟩ := writeUsize_exists hfits.m
    obtain ⟨efConstruction, hconstruction⟩ := writeUsize_exists hfits.efConstruction
    obtain ⟨efSearch, hsearch⟩ := writeUsize_exists hfits.efSearch
    exact ⟨_, except_bind_ok.mpr ⟨m, hm, except_bind_ok.mpr ⟨efConstruction, hconstruction,
      except_bind_ok.mpr ⟨efSearch, hsearch, rfl⟩⟩⟩⟩
  obtain ⟨maxLevel, hmaxLevel⟩ := writeUsize_exists (maxLevel_lt hindex hshaped hfits)
  obtain ⟨nodes, hnodes⟩ : ∃ bytes, writeNodes index.nodes = .ok bytes := by
    obtain ⟨len, hlen⟩ := lift_exists (Wal.writeLen_exists "too many HNSW nodes" hfits.nodes)
    obtain ⟨body, hbody⟩ := writeAll_exists fun node hnode =>
      writeNode_exists hindex.built.valid hfits.nodes hnode (hfits.records node hnode)
        (hfits.layers node hnode)
    exact ⟨_, except_bind_ok.mpr ⟨len, hlen, except_bind_ok.mpr ⟨body, hbody, rfl⟩⟩⟩
  exact ⟨_, except_bind_ok.mpr ⟨collection, hcollection, except_bind_ok.mpr ⟨_,
    except_bind_ok.mpr ⟨config, hconfig, except_bind_ok.mpr ⟨maxLevel, hmaxLevel,
      except_bind_ok.mpr ⟨nodes, hnodes, rfl⟩⟩⟩, rfl⟩⟩⟩

/-- The file is read back, and accepted when the graph is. -/
theorem decode_encoded (hindex : HnswIndex.IndexOf S index segments id metric config)
    (hfits : Fits ⟨fingerprint, index⟩) {payload : Bytes}
    (h : encodePayload ⟨fingerprint, index⟩ = .ok payload) :
    decodeNativeSnapshot S (encodeHeader payload ++ payload) =
      (HnswIndex.fromNativeGraph S index).mapError .hnsw >>= fun _ => pure ⟨fingerprint, index⟩ := by
  have hconfig : index.config.validate = .ok index.config := by
    rw [hindex.sameConfig]
    exact hindex.validated
  have hdimension : ∀ v, index.dimension = some v → v < 256 ^ 8 - 1 := by
    intro v hv
    rw [hindex.dimension, HnswIndex.records] at hv
    rcases hnodes : index.nodes with _ | ⟨first, rest⟩
    · rw [hnodes] at hv
      cases hv
    · rw [hnodes] at hv
      cases hv
      have hfirst : first ∈ index.nodes := hnodes ▸ List.mem_cons_self ..
      have hbound := (hfits.records first hfirst).vector
      show first.record.vector.length < _
      omega
  have hentry : ∀ v, index.entryPoint = some v → v < 256 ^ 8 - 1 := by
    intro v hv
    have hlt := (hindex.built.entry v hv).lt
    have hbound := hfits.nodes
    simp only at hbound
    omega
  have hread := @readSnapshot_reads ⟨fingerprint, index⟩ payload hconfig hdimension hentry h []
  rw [List.append_nil] at hread
  rw [decodeNativeSnapshot, checkHeader_encoded (hfits.payload payload h), except_ok_bind, hread,
    except_ok_bind]
  rfl

/-- A built graph is well formed, is written and read back as itself, exactly
when no visible record has an empty vector. -/
theorem build_survives_iff
    (hbuild : HnswIndex.build S segments id metric config = .ok index)
    (hfits : Fits ⟨fingerprint, index⟩) :
    (HnswIndex.fromNativeGraph S index = .ok index ∧
      (∀ node ∈ index.nodes, ∀ neighbors ∈ node.neighbors, neighbors.length ≤ config.m) ∧
      ∃ bytes, encodeNativeSnapshot ⟨fingerprint, index⟩ = .ok bytes ∧
        decodeNativeSnapshot S bytes = .ok ⟨fingerprint, index⟩) ↔
    ∀ record ∈ visibleRecords segments id, record.vector.values ≠ [] := by
  have hindex := HnswIndex.indexOf_of_build hbuild
  have hshaped := HnswIndex.shaped_of_build hbuild
  have haccepted := HnswIndex.fromNativeGraph_built_iff hindex hshaped
  rw [hindex.records] at haccepted
  rw [← haccepted]
  refine ⟨And.left, fun hgraph => ⟨hgraph, fun node hnode neighbors hneighbors => ?_, ?_⟩⟩
  · obtain ⟨position, hposition⟩ := List.mem_iff_getElem?.mp hnode
    obtain ⟨layer, hlayer⟩ := List.mem_iff_getElem?.mp hneighbors
    exact (hshaped.wired position layer neighbors
      (HnswIndex.getNeighbors_ok_iff.mpr ⟨node, hposition, hlayer⟩)).2.2
  · obtain ⟨payload, hpayload⟩ := encodePayload_exists hindex hshaped hfits
    have hbound := hfits.payload payload hpayload
    refine ⟨encodeHeader payload ++ payload, ?_, ?_⟩
    · rw [encodeNativeSnapshot, hpayload, except_ok_bind, if_pos (by omega)]
      rfl
    · rw [decode_encoded hindex hfits hpayload, hgraph]
      rfl

end Built


/-! ### A graph of one record -/

def graphCollection : CollectionId := ⟨"a", CollectionId.validate_a⟩

/-- A record with this vector and no metadata. -/
def graphRecord (vector : Vector) : Record := ⟨.unsigned 1, vector, .empty, 1⟩

def graphSegment (vector : Vector) : Segment := ⟨1, graphCollection, 1, 1, [graphRecord vector], []⟩

/-- What is built of one record: a node on layer 0 without neighbours. -/
def graphIndex (vector : Vector) : HnswIndex :=
  ⟨graphCollection, .l2, ⟨1, 1, 1⟩, some vector.length, [⟨graphRecord vector, 0, [[]]⟩], some 0, 0⟩

theorem visible_graphSegment (vector : Vector) :
    visibleRecords [graphSegment vector] graphCollection = [graphRecord vector] :=
  visibleRecords_of_segment (List.pairwise_singleton ..) rfl

theorem build_graphSegment (vector : Vector) :
    HnswIndex.build ℝ [graphSegment vector] graphCollection .l2 ⟨1, 1, 1⟩ =
      .ok (graphIndex vector) := by
  have hlevel : HnswIndex.deterministicLevel (RecordId.unsigned 1) = 0 := by decide
  have hchecked : [graphRecord vector].forM (HnswIndex.checkRecord ℝ .l2 vector.length) = .ok () :=
    HnswIndex.forM_checkRecord_ok_iff.mpr fun record hrecord => by
      rw [List.mem_singleton.mp hrecord]
      exact ⟨rfl, nofun⟩
  rw [HnswIndex.build, HnswIndex.mergeSort_visibleRecords, visible_graphSegment]
  show (([graphRecord vector].forM (HnswIndex.checkRecord ℝ .l2 vector.length)) >>= fun _ => _) = _
  rw [hchecked, except_ok_bind, List.foldlM_cons]
  simp only [HnswIndex.insert, HnswIndex.withNode, graphRecord, hlevel]
  rfl

/-- The vector `[1.0]`. -/
def unitVector : Vector := ⟨[⟨0x3f800000⟩], Vector.finite_one⟩

theorem fits_unitVector : Fits ⟨7, graphIndex unitVector⟩ := by
  have hrecord : RecordFits (graphRecord unitVector) := ⟨trivial, by decide, by decide, trivial⟩
  refine ⟨by decide, by decide, by decide, by decide, by decide, ?_, ?_, fun payload h => ?_⟩
  · exact List.forall_mem_singleton.mpr hrecord
  · exact List.forall_mem_singleton.mpr ⟨by decide, by decide⟩
  · have hsize : (encodePayload ⟨7, graphIndex unitVector⟩).map List.length = .ok 111 := rfl
    rw [h] at hsize
    have hlength : payload.length = 111 := Except.ok.inj hsize
    rw [hlength]
    decide

theorem build_survives_sample :
    (HnswIndex.fromNativeGraph ℝ (graphIndex unitVector) = .ok (graphIndex unitVector) ∧
      (∀ node ∈ (graphIndex unitVector).nodes, ∀ neighbors ∈ node.neighbors,
        neighbors.length ≤ 1) ∧
      ∃ bytes, encodeNativeSnapshot ⟨7, graphIndex unitVector⟩ = .ok bytes ∧
        decodeNativeSnapshot ℝ bytes = .ok ⟨7, graphIndex unitVector⟩) ↔
    ∀ record ∈ visibleRecords [graphSegment unitVector] graphCollection,
      record.vector.values ≠ [] :=
  build_survives_iff (build_graphSegment unitVector) fits_unitVector

/-- The empty vector of a record that belongs to no dimension. -/
theorem not_survives_empty_vector :
    HnswIndex.build ℝ [graphSegment ⟨[], rfl⟩] graphCollection .l2 ⟨1, 1, 1⟩ =
        .ok (graphIndex ⟨[], rfl⟩) ∧
      HnswIndex.fromNativeGraph ℝ (graphIndex ⟨[], rfl⟩) =
        .error (.invalidGraph "graph dimension is zero") :=
  ⟨build_graphSegment _, rfl⟩

end HnswSnapshotFile

end Ketebe
