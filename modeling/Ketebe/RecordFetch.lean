import Ketebe.Lib.OrderedSources
import Ketebe.RestMetadata
import Ketebe.Runtime

/-!
The readers of single records. A fetch of records by id takes the last segment that mentions a
record, the embedding migration folds all versions and keeps the records it manages. Both read
the segments that queries read.
-/
namespace Ketebe

open Lib.ByteCodec Lib.LatestVersion Lib.OrderedSources Lib.SortedSet

/-! ### Fetching by id -/

/-- An id as requests and responses write it. -/
inductive RecordIdDto where
  | string (value : String)
  | u64 (value : UInt64)
  deriving DecidableEq

/-- The errors of a fetch; a view that cannot be read is an internal error with its cause. -/
inductive FetchError where
  | api (error : ApiError)
  | collectionNotFound (code message : String)
  | readView (error : SegmentError)

namespace RecordIdDto

def intoDomain : RecordIdDto → Except FetchError RecordId
  | .string value => (RecordId.ofString value).mapError fun error =>
      .api ⟨.badRequest, "invalid_record_id", error.display⟩
  | .u64 value => .ok (.unsigned value)

def ofDomain : RecordId → RecordIdDto
  | .string value _ => .string value
  | .unsigned value => .u64 value

end RecordIdDto

/-- The fields of a record that a fetch asks for; the keys are in order, without repetition. -/
structure Projection where
  vector : Bool
  fullMetadata : Bool
  metadataKeys : List String
  deriving DecidableEq

namespace Projection

/-- The key behind the prefix `metadata.`, which is not empty. -/
def metadataKey (field : String) : Option String :=
  match field.toList.dropPrefix? "metadata.".toList with
  | some [] => none
  | some key => some (String.ofList key)
  | none => none

/-- What one more field adds. -/
def addField (projection : Projection) (field : String) : Except FetchError Projection :=
  if field = "vector" then .ok { projection with vector := true }
  else if field = "metadata" then .ok { projection with fullMetadata := true }
  else match metadataKey field with
    | some key => .ok { projection with
        metadataKeys := sortDedup (projection.metadataKeys ++ [key]) }
    | none => .error (.api ⟨.badRequest, "invalid_record_field",
        "unsupported record field projection '" ++ field ++ "'"⟩)

/-- No field asks for everything. -/
def parse (fields : List String) : Except FetchError Projection :=
  if fields = [] then .ok ⟨true, true, []⟩ else fields.foldlM addField ⟨false, false, []⟩

end Projection

structure FetchedRecordDto where
  id : RecordIdDto
  sequenceNumber : SequenceNumber
  vector : Option (List F32)
  metadata : Option JsonValue

structure FetchRecordsResponse where
  records : List FetchedRecordDto
  missing : List RecordIdDto

def getJson (key : String) : JsonFields → Option JsonValue
  | [] => none
  | (head, value) :: rest => if key = head then some value else getJson key rest

def projectMetadata (metadata : Metadata) (keys : List String) : Except FetchError JsonValue := do
  let full ← (metadataMapToJson metadata).mapError .api
  match full with
  | .object object =>
      pure (.object (keys.foldl (fun selected key =>
        match getJson key object with
        | some value => insertJson key value selected
        | none => selected) []))
  | _ => throw (.api ⟨.internalServerError, "internal_error",
      "record metadata projection was not an object"⟩)

def projectRecord (projection : Projection) (record : Record) :
    Except FetchError FetchedRecordDto := do
  let metadata ←
    if projection.fullMetadata then do
      let json ← (metadataMapToJson record.metadata).mapError .api
      pure (some json)
    else if projection.metadataKeys = [] then pure none
    else do
      let json ← projectMetadata record.metadata projection.metadataKeys
      pure (some json)
  pure {
    id := .ofDomain record.id
    sequenceNumber := record.sequenceNumber
    vector := if projection.vector then some record.vector.values else none
    metadata := metadata }

/-- The first of these segments that mentions the record decides. -/
def latestIn (id : RecordId) : List Segment → Option Record
  | [] => none
  | segment :: rest =>
      if segment.tombstones.any fun tombstone => tombstone.recordId = id then none
      else match segment.records.find? fun record => record.id = id with
        | some record => some record
        | none => latestIn id rest

/-- Segments are searched from the last one. -/
def latestRecord (segments : List Segment) (id : RecordId) : Option Record :=
  latestIn id segments.reverse

/-- The loop over the requested ids. -/
def fetchEach (segments : List Segment) (projection : Projection) :
    List RecordId → Except FetchError FetchRecordsResponse
  | [] => .ok ⟨[], []⟩
  | id :: rest => do
    match latestRecord segments id with
    | some record =>
        let fetched ← projectRecord projection record
        let response ← fetchEach segments projection rest
        pure { response with records := fetched :: response.records }
    | none =>
        let response ← fetchEach segments projection rest
        pure { response with missing := .ofDomain id :: response.missing }

/-- A fetch on the runtime that the catalog has for the collection. -/
def fetchRecords (collectionId : String) (runtime : Option CollectionRuntime)
    (ids : List RecordIdDto) (fields : List String) : Except FetchError FetchRecordsResponse := do
  let ids ← ids.mapM RecordIdDto.intoDomain
  let projection ← Projection.parse fields
  match runtime with
  | none => throw (.collectionNotFound "collection_not_found"
      ("collection '" ++ collectionId ++ "' was not found"))
  | some runtime =>
      let segments ← runtime.querySegments.mapError .readView
      fetchEach segments projection ids

/-! ### Managed records -/

def embeddingMetadataKey : String := "_ketebe_embedding"

/-- The live records whose vectors the embedding migration replaces, in the order of their ids. -/
def managedLiveRecords (segments : List Segment) (collectionId : CollectionId) : List Record :=
  ((fold (versionsIn segments collectionId)).toList.filterMap fun entry => entry.2.2).filter
    fun record => (record.metadata.get embeddingMetadataKey).isSome

/-! ### What a segment says about a record -/

section Single

variable {segment : Segment} {id : RecordId}

end Single

end Ketebe
