import Ketebe.CollectionFiles
import Ketebe.Lib.Directories
import Ketebe.Lib.FramedFile
import Ketebe.RecordSizes

/-!
The file of a checkpoint: its format, and the store that replaces it. A publication writes
a temporary file, which a crash may leave behind cut at any byte.
-/
namespace Ketebe

open Lib.ByteCodec Lib.Directories Lib.Durable Lib.Durable.Program Lib.FramedFile

namespace CheckpointFile

/-! ### The format -/

def magic : Bytes := [0x4b, 0x54, 0x43, 0x50]

def version : UInt8 := 1

/-- The length of the file is added up in 64 bits. -/
def format : Format CheckpointError where
  magic := magic
  version := version
  checksum := Wal.crc32
  totalLen payloadLen := .ok ((headerLen + payloadLen) % 256 ^ 8)
  truncated := .corrupt "truncated header"
  invalidMagic := .invalidMagic
  unsupportedVersion := .unsupportedVersion
  lengthMismatch := .corrupt "payload length mismatch"
  checksumMismatch := .checksumMismatch

def writeCount (message : String) (count : ℕ) : Except CheckpointError Bytes :=
  if count < 256 ^ 4 then .ok (leBytes 4 count) else .error (.corrupt message)

def encodePayload (checkpoint : Checkpoint) : Except CheckpointError Bytes := do
  let collectionLen ← writeCount "collection ID too long"
    (utf8 checkpoint.collectionId.asStr).length
  let segmentCount ← writeCount "too many segment IDs" checkpoint.segments.length
  pure (collectionLen ++ (utf8 checkpoint.collectionId.asStr ++
    (leBytes 8 checkpoint.sequenceNumber.toNat ++ (segmentCount ++
      checkpoint.segments.flatMap fun segment => leBytes 8 segment.toNat))))

def encodeCheckpoint (checkpoint : Checkpoint) : Except CheckpointError Bytes := do
  let payload ← encodePayload checkpoint
  if payload.length < 256 ^ 8 then pure (format.encode payload)
  else throw (.corrupt "checkpoint payload too large")

def readExact (count : ℕ) : Reader CheckpointError Bytes :=
  Reader.take (.corrupt "truncated payload") count

def readU32 : Reader CheckpointError ℕ := do
  let bytes ← readExact 4
  pure (leValue bytes)

def readU64 : Reader CheckpointError UInt64 := do
  let bytes ← readExact 8
  pure (UInt64.ofNat (leValue bytes))

def collectionName (bytes : Bytes) : Except CheckpointError String :=
  match ofUtf8 bytes with
  | some value => .ok value
  | none => .error (.corrupt "collection ID is not UTF-8")

def readCollectionId : Reader CheckpointError CollectionId := do
  let len ← readU32
  let bytes ← readExact len
  let name ← Reader.check (collectionName bytes)
  Reader.check ((CollectionId.new name).mapError fun error => .domain error.display)

def readCheckpoint : Reader CheckpointError Checkpoint := do
  let collectionId ← readCollectionId
  let sequenceNumber ← readU64
  let segmentCount ← readU32
  let segments ← Reader.times readU64 segmentCount
  pure (Checkpoint.new collectionId segments sequenceNumber)

def decodeCheckpoint (bytes : Bytes) : Except CheckpointError Checkpoint := do
  let payload ← format.decode bytes
  let (checkpoint, rest) ← readCheckpoint payload
  if rest ≠ [] then throw (.corrupt "trailing payload bytes")
  else pure checkpoint

/-! ### Reading inverts writing -/

theorem readU32_reads {value : ℕ} (h : value < 256 ^ 4) : Reads readU32 (leBytes 4 value) value := by
  have hread := Reads.take (CheckpointError.corrupt "truncated payload") (leBytes 4 value)
  rw [length_leBytes] at hread
  have hvalue := hread.map (f := leValue)
  rwa [leValue_leBytes 4 value h] at hvalue

theorem readU64_reads (value : UInt64) : Reads readU64 (leBytes 8 value.toNat) value := by
  have hread := Reads.take (CheckpointError.corrupt "truncated payload") (leBytes 8 value.toNat)
  rw [length_leBytes] at hread
  have hvalue := hread.map (f := fun bytes => UInt64.ofNat (leValue bytes))
  rwa [leValue_leBytes 8 _ value.toNat_lt, UInt64.ofNat_toNat] at hvalue

theorem writeCount_ok {message : String} {count : ℕ} {bytes : Bytes}
    (h : writeCount message count = .ok bytes) : count < 256 ^ 4 ∧ bytes = leBytes 4 count := by
  unfold writeCount at h
  split at h
  · exact ⟨‹_›, (Except.ok.inj h).symm⟩
  · cases h

theorem readCollectionId_reads {id : CollectionId} (h : (utf8 id.asStr).length < 256 ^ 4) :
    Reads readCollectionId (leBytes 4 (utf8 id.asStr).length ++ utf8 id.asStr) id := by
  have hname : collectionName (utf8 id.asStr) = .ok id.asStr := by
    rw [collectionName, ofUtf8_utf8]
  have hid : (CollectionId.new id.asStr).mapError (fun error => CheckpointError.domain error.display)
      = .ok id := by
    rw [CollectionId.new_asStr]
    rfl
  have hlifted := (Reads.lift hname).bind (f := fun name => Reader.check
    ((CollectionId.new name).mapError fun error => CheckpointError.domain error.display))
    (Reads.lift hid)
  have hrest := (Reads.take (CheckpointError.corrupt "truncated payload")
    (utf8 id.asStr)).bind (f := fun bytes => Reader.check (collectionName bytes) >>= fun name =>
      Reader.check ((CollectionId.new name).mapError fun error =>
        CheckpointError.domain error.display)) hlifted
  rw [List.append_nil, List.append_nil] at hrest
  exact (readU32_reads h).bind hrest

theorem new_segments (checkpoint : Checkpoint) : Checkpoint.new checkpoint.collectionId
    checkpoint.segments checkpoint.sequenceNumber = checkpoint :=
  Checkpoint.ext_mem rfl rfl fun _ => Checkpoint.mem_segments_new

theorem readCheckpoint_reads {checkpoint : Checkpoint} {payload : Bytes}
    (h : encodePayload checkpoint = .ok payload) : Reads readCheckpoint payload checkpoint := by
  obtain ⟨collectionLen, hcollection, h⟩ := except_bind_ok.mp h
  obtain ⟨segmentCount, hsegments, h⟩ := except_bind_ok.mp h
  cases h
  obtain ⟨hname, rfl⟩ := writeCount_ok hcollection
  obtain ⟨hcount, rfl⟩ := writeCount_ok hsegments
  rw [← List.append_assoc]
  refine (readCollectionId_reads hname).bind ((readU64_reads _).bind
    ((readU32_reads hcount).bind ?_))
  have hsegmentsRead : Reads (Reader.times readU64 checkpoint.segments.length)
      (checkpoint.segments.flatMap fun segment => leBytes 8 segment.toNat) checkpoint.segments :=
    .times (fun segment => leBytes 8 segment.toNat) checkpoint.segments
      fun segment _ => readU64_reads segment
  have hread := hsegmentsRead.map
    (f := fun segments => Checkpoint.new checkpoint.collectionId segments checkpoint.sequenceNumber)
  rwa [new_segments] at hread

theorem decodeCheckpoint_encode {payload : Bytes} {checkpoint : Checkpoint}
    (hpayload : encodePayload checkpoint = .ok payload)
    (hlength : headerLen + payload.length < 256 ^ 8) :
    decodeCheckpoint (format.encode payload) = .ok checkpoint := by
  have htotal : format.totalLen payload.length = .ok (headerLen + payload.length) :=
    congrArg Except.ok (Nat.mod_eq_of_lt hlength)
  have hall := readCheckpoint_reads hpayload []
  rw [List.append_nil] at hall
  rw [decodeCheckpoint, Format.decode_encode rfl (by omega) htotal, except_ok_bind, hall]
  rfl

/-- A checkpoint holds at most 128 bytes of a name, and less than 2³² ids of eight bytes. -/
theorem length_payload {checkpoint : Checkpoint} {payload : Bytes}
    (h : encodePayload checkpoint = .ok payload) : payload.length < 256 ^ 5 := by
  obtain ⟨collectionLen, hcollection, h⟩ := except_bind_ok.mp h
  obtain ⟨segmentCount, hsegments, h⟩ := except_bind_ok.mp h
  cases h
  obtain ⟨hname, rfl⟩ := writeCount_ok hcollection
  obtain ⟨hcount, rfl⟩ := writeCount_ok hsegments
  have hids : (checkpoint.segments.flatMap fun segment => leBytes 8 segment.toNat).length =
      8 * checkpoint.segments.length := by
    rw [List.length_flatMap]
    simp [mul_comm]
  simp only [List.length_append, length_leBytes, hids]
  omega

theorem encodeCheckpoint_ok_iff {checkpoint : Checkpoint} {bytes : Bytes} :
    encodeCheckpoint checkpoint = .ok bytes ↔
      ∃ payload, encodePayload checkpoint = .ok payload ∧ format.encode payload = bytes := by
  rw [encodeCheckpoint, except_bind_ok]
  constructor
  · rintro ⟨payload, hpayload, h⟩
    rw [if_pos ((length_payload hpayload).trans (by norm_num))] at h
    exact ⟨payload, hpayload, Except.ok.inj h⟩
  · rintro ⟨payload, hpayload, rfl⟩
    exact ⟨payload, hpayload, if_pos ((length_payload hpayload).trans (by norm_num))⟩

theorem decodeCheckpoint_of_encode {checkpoint : Checkpoint} {bytes : Bytes}
    (h : encodeCheckpoint checkpoint = .ok bytes) : decodeCheckpoint bytes = .ok checkpoint := by
  obtain ⟨payload, hpayload, rfl⟩ := encodeCheckpoint_ok_iff.mp h
  have hlength := length_payload hpayload
  exact decodeCheckpoint_encode hpayload (by unfold headerLen; omega)

theorem encodeCheckpoint_exists_iff {checkpoint : Checkpoint} :
    (∃ bytes, encodeCheckpoint checkpoint = .ok bytes) ↔ checkpoint.segments.length < 256 ^ 4 := by
  constructor
  · rintro ⟨bytes, h⟩
    obtain ⟨payload, hpayload, -⟩ := encodeCheckpoint_ok_iff.mp h
    obtain ⟨collectionLen, -, h⟩ := except_bind_ok.mp hpayload
    obtain ⟨segmentCount, hsegments, -⟩ := except_bind_ok.mp h
    exact (writeCount_ok hsegments).1
  · intro h
    have hpayload : encodePayload checkpoint = .ok _ :=
      except_bind_ok.mpr ⟨_, if_pos checkpoint.collectionId.length_asStr,
        except_bind_ok.mpr ⟨_, if_pos h, rfl⟩⟩
    exact ⟨_, encodeCheckpoint_ok_iff.mpr ⟨_, hpayload, rfl⟩⟩

theorem length_of_times {reader : Reader CheckpointError UInt64} {count : ℕ} {input rest : Bytes}
    {values : List UInt64} (h : Reader.times reader count input = .ok (values, rest)) :
    values.length = count := by
  induction count generalizing input values with
  | zero =>
    cases h
    rfl
  | succ count ih =>
    obtain ⟨head, middle, -, h⟩ := Reader.bind_ok.mp h
    obtain ⟨tail, last, htail, h⟩ := Reader.bind_ok.mp h
    cases h
    rw [List.length_cons, ih htail]

theorem lt_of_readU32 {input rest : Bytes} {count : ℕ} (h : readU32 input = .ok (count, rest)) :
    count < 256 ^ 4 := by
  obtain ⟨bytes, middle, htake, h⟩ := Reader.bind_ok.mp h
  cases h
  unfold readExact Reader.take at htake
  split at htake
  · cases htake
    have hvalue := leValue_lt (input.take 4)
    rwa [List.length_take, min_eq_left ‹_›] at hvalue
  · cases htake

theorem length_segments_new (collectionId : CollectionId) (segments : List UInt64)
    (sequenceNumber : SequenceNumber) :
    (Checkpoint.new collectionId segments sequenceNumber).segments.length ≤ segments.length :=
  ((Lib.SortedSet.nodup_sortDedup segments).subperm fun _ hid =>
    Lib.SortedSet.mem_sortDedup.mp hid).length_le

/-- A file that is accepted holds a checkpoint that can be written. -/
theorem length_segments_of_decode {checkpoint : Checkpoint} {bytes : Bytes}
    (h : decodeCheckpoint bytes = .ok checkpoint) : checkpoint.segments.length < 256 ^ 4 := by
  obtain ⟨payload, -, h⟩ := except_bind_ok.mp h
  obtain ⟨⟨value, rest⟩, hread, h⟩ := except_bind_ok.mp h
  obtain ⟨collectionId, afterId, -, hread⟩ := Reader.bind_ok.mp hread
  obtain ⟨sequenceNumber, afterNumber, -, hread⟩ := Reader.bind_ok.mp hread
  obtain ⟨count, afterCount, hcount, hread⟩ := Reader.bind_ok.mp hread
  obtain ⟨segments, last, hsegments, hread⟩ := Reader.bind_ok.mp hread
  cases hread
  have hvalue : Checkpoint.new collectionId segments sequenceNumber = checkpoint := by
    change (if rest ≠ [] then _ else _) = _ at h
    split at h
    · cases h
    · exact Except.ok.inj h
  rw [← hvalue]
  refine (length_segments_new ..).trans_lt ?_
  rw [length_of_times hsegments]
  exact lt_of_readU32 hcount

/-- The checkpoints that can be written are read back, and no others are ever read. -/
theorem decodeCheckpoint_iff (checkpoint : Checkpoint) :
    ((∃ bytes, encodeCheckpoint checkpoint = .ok bytes ∧ decodeCheckpoint bytes = .ok checkpoint) ↔
      checkpoint.segments.length < 256 ^ 4) ∧
    ((∃ bytes, decodeCheckpoint bytes = .ok checkpoint) ↔
      checkpoint.segments.length < 256 ^ 4) := by
  have hwritten (h : checkpoint.segments.length < 256 ^ 4) :
      ∃ bytes, encodeCheckpoint checkpoint = .ok bytes ∧
        decodeCheckpoint bytes = .ok checkpoint := by
    obtain ⟨bytes, hbytes⟩ := encodeCheckpoint_exists_iff.mpr h
    exact ⟨bytes, hbytes, decodeCheckpoint_of_encode hbytes⟩
  refine ⟨⟨?_, hwritten⟩, ?_, fun h => ?_⟩
  · rintro ⟨bytes, -, hbytes⟩
    exact length_segments_of_decode hbytes
  · rintro ⟨bytes, hbytes⟩
    exact length_segments_of_decode hbytes
  · obtain ⟨bytes, -, hbytes⟩ := hwritten h
    exact ⟨bytes, hbytes⟩

end CheckpointFile

/-! ### The store -/

open CheckpointFile

namespace CheckpointStore

def fileName : String := "checkpoint.ktcp"

def tempFileName : String := "checkpoint.ktcp.tmp"

def load (directory : Directory) : Except CheckpointError (Option Checkpoint) :=
  match directory[fileName]? with
  | none => .ok none
  | some bytes => (decodeCheckpoint bytes).map some

def publish (checkpoint : Checkpoint) : Program Directory CheckpointError Unit := do
  removeIfExists .io tempFileName
  let bytes ← lift (encodeCheckpoint checkpoint)
  replaceFile .io tempFileName fileName bytes

theorem load_congr {before after : Directory} (h : SameBut tempFileName before after) :
    load after = load before := by
  rw [load, h fileName (by decide), load]

theorem load_of_replaced {checkpoint : Checkpoint} {before after : Directory} {bytes : Bytes}
    (hbytes : encodeCheckpoint checkpoint = .ok bytes)
    (h : Replaced tempFileName fileName bytes before after) : load after = .ok (some checkpoint) := by
  rw [load, h.1]
  exact congrArg (Except.map some) (decodeCheckpoint_of_encode hbytes)

/-- An interrupted publication has replaced the whole file or nothing. -/
def loads (start : Except CheckpointError (Option Checkpoint)) (checkpoint : Checkpoint) :
    Post Directory CheckpointError Unit where
  ok := fun _ after => load after = .ok (some checkpoint)
  error := fun _ after => load after = start ∨ load after = .ok (some checkpoint)
  crashed := fun after => load after = start ∨ load after = .ok (some checkpoint)

theorem publish_loads (directory : Directory) (checkpoint : Checkpoint) :
    (publish checkpoint).Ensures (loads (load directory) checkpoint) directory := by
  refine ensures_of_aside (removeIfExists_aside CheckpointError.io (SameBut.refl tempFileName directory))
    (fun _ _ h => .inl (load_congr h)) (fun _ h => .inl (load_congr h)) ?_
  intro removed hremoved htemp
  refine ensures_bind (ensures_lift (fun bytes hbytes => ?_) fun _ _ => .inl (load_congr hremoved))
  exact (replaceFile_replaces CheckpointError.io hremoved htemp bytes).mono
    (fun _ _ hok => load_of_replaced hbytes hok)
    (fun _ _ herror => herror.imp load_congr (load_of_replaced hbytes))
    fun _ hcrashed => hcrashed.imp load_congr (load_of_replaced hbytes)

/-- No file that a crash left behind keeps a publication from its end. -/
theorem publish_returns (directory : Directory) {checkpoint : Checkpoint} {bytes : Bytes}
    (h : encodeCheckpoint checkpoint = .ok bytes) :
    ∃ after, (publish checkpoint).Returns directory () after ∧
      load after = .ok (some checkpoint) := by
  obtain ⟨removed, hremove, hremoved, htemp⟩ :=
    returns_removeIfExists CheckpointError.io tempFileName directory
  obtain ⟨after, hreplace, hreplaced⟩ := returns_replaceFile CheckpointError.io hremoved htemp bytes
  exact ⟨after, returns_bind hremove (returns_bind (returns_lift h) hreplace),
    load_of_replaced h hreplaced⟩

/-! ### Runs -/

def returned : Ending CheckpointError Unit → Bool
  | .ok _ => true
  | _ => false

/-- Publications one after the other, each under faults of its own, and which of them returned. -/
def publications : Directory → List (Checkpoint × List Fault) →
    Directory × List (Checkpoint × Bool)
  | directory, [] => (directory, [])
  | directory, (checkpoint, faults) :: rest =>
    let (ending, world) := (publish checkpoint).run directory faults
    let (after, published) := publications world.state rest
    (after, (checkpoint, returned ending) :: published)

/-- Nothing that returned is behind what is current. -/
def Current (start : Option Checkpoint) (published : List (Checkpoint × Bool))
    (loaded : Option Checkpoint) : Prop :=
  (loaded = start ∧ ∀ attempt ∈ published, attempt.2 = false) ∨
    ∃ before attempt after, published = before ++ attempt :: after ∧ loaded = some attempt.1 ∧
      ∀ attempt ∈ after, attempt.2 = false

theorem Current.cons {start next loaded : Option Checkpoint} {checkpoint : Checkpoint}
    {done : Bool} {published : List (Checkpoint × Bool)}
    (h : Current next published loaded)
    (hnext : next = some checkpoint ∨ next = start ∧ done = false) :
    Current start ((checkpoint, done) :: published) loaded := by
  obtain ⟨rfl, hnone⟩ | ⟨before, attempt, after, rfl, hloaded, hafter⟩ := h
  · obtain rfl | ⟨rfl, rfl⟩ := hnext
    · exact .inr ⟨[], _, published, rfl, rfl, hnone⟩
    · exact .inl ⟨rfl, List.forall_mem_cons.mpr ⟨rfl, hnone⟩⟩
  · exact .inr ⟨_ :: before, attempt, after, rfl, hloaded, hafter⟩

theorem publications_current {directory : Directory} {start : Option Checkpoint}
    (attempts : List (Checkpoint × List Fault)) (h : load directory = .ok start) :
    ∃ loaded, load (publications directory attempts).1 = .ok loaded ∧
      Current start (publications directory attempts).2 loaded := by
  induction attempts generalizing directory start with
  | nil => exact ⟨start, h, .inl ⟨rfl, fun _ hmem => absurd hmem List.not_mem_nil⟩⟩
  | cons attempt rest ih =>
    obtain ⟨checkpoint, faults⟩ := attempt
    have hpublish := publish_loads directory checkpoint faults
    rw [publications]
    generalize (publish checkpoint).run directory faults = result at hpublish ⊢
    obtain ⟨ending, world⟩ := result
    have hnext : load world.state = .ok (some checkpoint) ∨
        load world.state = .ok start ∧ returned ending = false := by
      cases ending with
      | ok value => exact .inl hpublish
      | error error => exact hpublish.symm.imp_right fun hold => ⟨hold.trans h, rfl⟩
      | crashed => exact hpublish.symm.imp_right fun hold => ⟨hold.trans h, rfl⟩
    obtain hnew | ⟨hold, hfailed⟩ := hnext
    · obtain ⟨loaded, hloaded, hcurrent⟩ := ih hnew
      exact ⟨loaded, hloaded, hcurrent.cons (.inl rfl)⟩
    · obtain ⟨loaded, hloaded, hcurrent⟩ := ih hold
      exact ⟨loaded, hloaded, hcurrent.cons (.inr ⟨rfl, hfailed⟩)⟩

/-- Whatever publications end early, the last one that returned or a later one is loaded, and
the next one without faults returns. -/
theorem load_publications {directory : Directory} {start : Option Checkpoint}
    (attempts : List (Checkpoint × List Fault)) (h : load directory = .ok start) :
    (∃ loaded, load (publications directory attempts).1 = .ok loaded ∧
      Current start (publications directory attempts).2 loaded) ∧
    ∀ checkpoint : Checkpoint, checkpoint.segments.length < 256 ^ 4 →
      ∃ after, (publish checkpoint).Returns (publications directory attempts).1 () after ∧
        load after = .ok (some checkpoint) := by
  refine ⟨publications_current attempts h, fun checkpoint hlength => ?_⟩
  obtain ⟨bytes, hbytes⟩ := encodeCheckpoint_exists_iff.mpr hlength
  exact publish_returns _ hbytes

theorem load_publications_docs :
    let attempts := [(Checkpoint.new ⟨"docs", CollectionId.validate_docs⟩ [2, 1] 12,
      [Fault.none, Fault.crashesAfter])]
    ∃ loaded, load (publications ∅ attempts).1 = .ok loaded ∧
      Current none (publications ∅ attempts).2 loaded :=
  (load_publications _ (by rw [load, Std.ExtTreeMap.getElem?_empty])).1

end CheckpointStore

end Ketebe
