import Ketebe.ControlPlaneStore
import Ketebe.Lib.FramedFile
import Ketebe.Lib.KeyedTable
import Ketebe.WalCodec

/-!
The file of the control-plane store. What the encoder writes is read back to the
same resources, so that loading a written state amounts to validating it.
-/
namespace Ketebe

open Lib.ByteCodec Lib.FramedFile Lib.KeyedTable

/-! ### What the constructors guarantee -/

theorem trim_trim (value : String) : trim (trim value) = trim value := by
  have hidem : ∀ characters : List Char,
      List.rdropWhile isWhitespace (List.dropWhile isWhitespace
        (List.rdropWhile isWhitespace (List.dropWhile isWhitespace characters))) =
      List.rdropWhile isWhitespace (List.dropWhile isWhitespace characters) := by
    intro characters
    have hdrop : List.dropWhile isWhitespace
        (List.rdropWhile isWhitespace (List.dropWhile isWhitespace characters)) =
        List.rdropWhile isWhitespace (List.dropWhile isWhitespace characters) := by
      rw [List.dropWhile_eq_self_iff]
      intro hpos
      -- The first character left is the first one that is not white space.
      have hpre := List.rdropWhile_prefix isWhitespace (List.dropWhile isWhitespace characters)
      have hlen := hpos.trans_le hpre.length_le
      rw [hpre.getElem hpos]
      have hfirst := List.dropWhile_eq_self_iff.mp (List.dropWhile_idempotent isWhitespace characters)
      exact hfirst hlen
    rw [hdrop, List.rdropWhile_idempotent]
  rw [trim, trim, String.toList_ofList, hidem]

theorem trim_normalize {value : String} {name : ResourceName}
    (h : ResourceName.normalize value = .ok name) : trim name.asStr = name.asStr := by
  unfold ResourceName.normalize at h
  split at h
  · cases h
    exact trim_trim value
  · cases h

theorem normalize_asStr {name : ResourceName} (h : trim name.asStr = name.asStr) :
    ResourceName.normalize name.asStr = .ok name := by
  unfold ResourceName.normalize
  split
  · cases name
    simp only [h]
  · rename_i error herror
    rw [h, name.valid] at herror
    cases herror

theorem Slug.new_asStr {kind : String} (slug : Slug kind) : Slug.new kind slug.asStr = .ok slug := by
  unfold Slug.new
  split
  · rfl
  · rename_i error herror
    rw [slug.valid] at herror
    cases herror

theorem OrganizationId.new_asStr (id : OrganizationId) : OrganizationId.new id.asStr = .ok id := by
  unfold OrganizationId.new
  split
  · rfl
  · rename_i error herror
    rw [id.valid] at herror
    cases herror

theorem ProjectId.asStr_injective : Function.Injective ProjectId.asStr := by
  intro a b h
  cases a
  cases b
  cases h
  rfl

theorem ProjectId.new_asStr (id : ProjectId) : ProjectId.new id.asStr = .ok id := by
  unfold ProjectId.new
  split
  · rfl
  · rename_i error herror
    rw [id.valid] at herror
    cases herror

theorem ResourceTimestamps.new_eq (timestamps : ResourceTimestamps) :
    ResourceTimestamps.new timestamps.createdAtUnix timestamps.updatedAtUnix = .ok timestamps := by
  unfold ResourceTimestamps.new
  rw [dif_neg (not_lt.mpr timestamps.ordered)]

/-- The name is trimmed and the timestamps are words, as the constructor makes them. -/
structure Organization.Representable (organization : Organization) : Prop where
  name : trim organization.name.asStr = organization.name.asStr
  timestamps : organization.timestamps.updatedAtUnix < 256 ^ 8

structure Project.Representable (project : Project) : Prop where
  name : trim project.name.asStr = project.name.asStr
  timestamps : project.timestamps.updatedAtUnix < 256 ^ 8

theorem Organization.new_representable {id : OrganizationId} {name slug : String}
    {lifecycle : ResourceLifecycleState} {timestamps : ResourceTimestamps}
    {organization : Organization} (htimestamps : timestamps.updatedAtUnix < 256 ^ 8)
    (h : Organization.new id name slug lifecycle timestamps = .ok organization) :
    organization.Representable := by
  obtain ⟨resourceName, hname, h⟩ := except_bind_ok.mp h
  obtain ⟨resourceSlug, -, h⟩ := except_bind_ok.mp h
  cases h
  exact ⟨trim_normalize hname, htimestamps⟩

theorem Project.new_representable {id : ProjectId} {organizationId : OrganizationId}
    {name slug : String} {lifecycle : ResourceLifecycleState} {timestamps : ResourceTimestamps}
    {project : Project} (htimestamps : timestamps.updatedAtUnix < 256 ^ 8)
    (h : Project.new id organizationId name slug lifecycle timestamps = .ok project) :
    project.Representable := by
  obtain ⟨resourceName, hname, h⟩ := except_bind_ok.mp h
  obtain ⟨resourceSlug, -, h⟩ := except_bind_ok.mp h
  cases h
  exact ⟨trim_normalize hname, htimestamps⟩

theorem Organization.Representable.new_eq {organization : Organization}
    (h : organization.Representable) :
    Organization.new organization.id organization.name.asStr organization.slug.asStr
      organization.lifecycle organization.timestamps = .ok organization := by
  rw [Organization.new, normalize_asStr h.name, except_ok_bind, Slug.new_asStr, except_ok_bind]
  rfl

theorem Project.Representable.new_eq {project : Project} (h : project.Representable) :
    Project.new project.id project.organizationId project.name.asStr project.slug.asStr
      project.lifecycle project.timestamps = .ok project := by
  rw [Project.new, normalize_asStr h.name, except_ok_bind, Slug.new_asStr, except_ok_bind]
  rfl

/-! ### The file -/

namespace ControlPlaneState

/-- The errors of the header, and those that the operations share. -/
inductive LoadError where
  | invalidMagic
  | unsupportedVersion (version : UInt8)
  | checksumMismatch
  | store (error : ControlPlaneStoreError)

def LoadError.corrupt (message : String) : LoadError := .store (.corrupt message)

def magic : Bytes := [0x4b, 0x54, 0x43, 0x50]

def version : UInt8 := 1

/-- The length of the file is added up in 64 bits. -/
def format : Format LoadError where
  magic := magic
  version := version
  checksum := Wal.crc32
  totalLen payloadLen := .ok ((headerLen + payloadLen) % 256 ^ 8)
  truncated := .corrupt "truncated header"
  invalidMagic := .invalidMagic
  unsupportedVersion := .unsupportedVersion
  lengthMismatch := .corrupt "payload length mismatch"
  checksumMismatch := .checksumMismatch

def writeU32 (value : ℕ) : Except ControlPlaneStoreError Bytes :=
  if value < 256 ^ 4 then .ok (leBytes 4 value) else .error (.corrupt "record count too large")

def writeString (value : String) : Except ControlPlaneStoreError Bytes := do
  let len ← writeU32 (utf8 value).length
  pure (len ++ utf8 value)

def encodeLifecycle : ResourceLifecycleState → UInt8
  | .active => 1
  | .suspended => 2
  | .deleting => 3

/-- The end of both kinds of entry. -/
def encodeStatus (lifecycle : ResourceLifecycleState) (timestamps : ResourceTimestamps) : Bytes :=
  [encodeLifecycle lifecycle] ++
    (leBytes 8 timestamps.createdAtUnix ++ leBytes 8 timestamps.updatedAtUnix)

def writeOrganization (organization : Organization) : Except ControlPlaneStoreError Bytes := do
  let id ← writeString organization.id.asStr
  let name ← writeString organization.name.asStr
  let slug ← writeString organization.slug.asStr
  pure (id ++ (name ++ (slug ++ encodeStatus organization.lifecycle organization.timestamps)))

def writeProject (project : Project) : Except ControlPlaneStoreError Bytes := do
  let id ← writeString project.id.asStr
  let organizationId ← writeString project.organizationId.asStr
  let name ← writeString project.name.asStr
  let slug ← writeString project.slug.asStr
  pure (id ++ (organizationId ++ (name ++ (slug ++
    encodeStatus project.lifecycle project.timestamps))))

def encodePayload (state : ControlPlaneState) : Except ControlPlaneStoreError Bytes := do
  let organizationCount ← writeU32 state.organizations.size
  let organizations ← encodeAll writeOrganization (values state.organizations)
  let projectCount ← writeU32 state.projects.size
  let projects ← encodeAll writeProject (values state.projects)
  pure (organizationCount ++ (organizations ++ (projectCount ++ projects)))

def encodeState (state : ControlPlaneState) : Except ControlPlaneStoreError Bytes := do
  let payload ← encodePayload state
  if payload.length < 256 ^ 8 then pure (format.encode payload)
  else throw (.corrupt "payload too large")

def readExact (count : ℕ) : Reader LoadError Bytes :=
  Reader.take (.corrupt "truncated payload") count

def readU8 : Reader LoadError UInt8 := do
  let bytes ← readExact 1
  pure (bytes.headD 0)

def readU32 : Reader LoadError ℕ := do
  let bytes ← readExact 4
  pure (leValue bytes)

def readU64 : Reader LoadError ℕ := do
  let bytes ← readExact 8
  pure (leValue bytes)

def stringFromUtf8 (bytes : Bytes) : Except LoadError String :=
  match ofUtf8 bytes with
  | some value => .ok value
  | none => .error (.corrupt "string is not UTF-8")

def readString : Reader LoadError String := do
  let len ← readU32
  let bytes ← readExact len
  Reader.check (stringFromUtf8 bytes)

def checkDomain {α : Type} (result : Except ControlPlaneDomainError α) : Reader LoadError α :=
  Reader.check (result.mapError fun error => .store (.domain error.display))

def checkScope {α : Type} (result : Except ScopeError α) : Reader LoadError α :=
  Reader.check (result.mapError fun error => .store (.domain error.display))

def decodeLifecycle (value : UInt8) : Except LoadError ResourceLifecycleState :=
  if value = 1 then .ok .active
  else if value = 2 then .ok .suspended
  else if value = 3 then .ok .deleting
  else .error (.corrupt "unknown lifecycle state")

def readLifecycle : Reader LoadError ResourceLifecycleState := do
  let value ← readU8
  Reader.check (decodeLifecycle value)

def readTimestamps : Reader LoadError ResourceTimestamps := do
  let createdAtUnix ← readU64
  let updatedAtUnix ← readU64
  checkDomain (ResourceTimestamps.new createdAtUnix updatedAtUnix)

def readOrganizationId : Reader LoadError OrganizationId := do
  let value ← readString
  checkDomain (OrganizationId.new value)

def readProjectId : Reader LoadError ProjectId := do
  let value ← readString
  checkScope (ProjectId.new value)

def readOrganization : Reader LoadError Organization := do
  let id ← readOrganizationId
  let name ← readString
  let slug ← readString
  let lifecycle ← readLifecycle
  let timestamps ← readTimestamps
  checkDomain (Organization.new id name slug lifecycle timestamps)

def readProject : Reader LoadError Project := do
  let id ← readProjectId
  let organizationId ← readOrganizationId
  let name ← readString
  let slug ← readString
  let lifecycle ← readLifecycle
  let timestamps ← readTimestamps
  checkDomain (Project.new id organizationId name slug lifecycle timestamps)

def organizationKey (organization : Organization) : String := organization.id.asStr

def projectKey (project : Project) : String := project.id.asStr

def readState : Reader LoadError ControlPlaneState := do
  let organizationCount ← readU32
  let organizations ← Reader.timesDistinct readOrganization organizationKey
    (.corrupt "duplicate organization ID") [] organizationCount
  let projectCount ← readU32
  let projects ← Reader.timesDistinct readProject projectKey (.corrupt "duplicate project ID") []
    projectCount
  pure ⟨ofValues organizationKey organizations, ofValues projectKey projects⟩

def checkProject (state : ControlPlaneState) (project : Project) :
    Except ControlPlaneStoreError Unit := do
  (state.ensureProjectParentExists project).mapError fun _ => .corrupt "orphan project"
  state.ensureProjectSlugUnique project (some project.id.asStr)

def validateLoadedState (state : ControlPlaneState) : Except ControlPlaneStoreError Unit := do
  (values state.organizations).forM fun organization =>
    state.ensureOrganizationSlugUnique organization (some organization.id.asStr)
  (values state.projects).forM state.checkProject

def decodeState (bytes : Bytes) : Except LoadError ControlPlaneState := do
  let payload ← format.decode bytes
  let (state, rest) ← readState payload
  if rest ≠ [] then throw (.corrupt "trailing payload bytes")
  else do
    (state.validateLoadedState).mapError .store
    pure state

/-! ### Reading inverts writing -/

theorem readExact_reads (bytes : Bytes) : Reads (readExact bytes.length) bytes bytes :=
  Reads.take _ bytes

theorem readU8_reads (byte : UInt8) : Reads readU8 [byte] byte := by
  exact (readExact_reads [byte]).map (f := fun bytes => bytes.headD 0)

theorem readU32_reads {value : ℕ} (h : value < 256 ^ 4) : Reads readU32 (leBytes 4 value) value := by
  have hread := readExact_reads (leBytes 4 value)
  rw [length_leBytes] at hread
  have hvalue := hread.map (f := leValue)
  rwa [leValue_leBytes 4 value h] at hvalue

theorem readU64_reads {value : ℕ} (h : value < 256 ^ 8) : Reads readU64 (leBytes 8 value) value := by
  have hread := readExact_reads (leBytes 8 value)
  rw [length_leBytes] at hread
  have hvalue := hread.map (f := leValue)
  rwa [leValue_leBytes 8 value h] at hvalue

theorem writeU32_ok {value : ℕ} {bytes : Bytes} (h : writeU32 value = .ok bytes) :
    bytes = leBytes 4 value ∧ value < 256 ^ 4 := by
  unfold writeU32 at h
  split at h
  · rename_i hlt
    cases h
    exact ⟨rfl, hlt⟩
  · cases h

theorem writeString_ok {value : String} {bytes : Bytes} (h : writeString value = .ok bytes) :
    bytes = leBytes 4 (utf8 value).length ++ utf8 value ∧ (utf8 value).length < 256 ^ 4 := by
  obtain ⟨len, hlen, h⟩ := except_bind_ok.mp h
  obtain ⟨rfl, hlt⟩ := writeU32_ok hlen
  cases h
  exact ⟨rfl, hlt⟩

theorem readString_reads {value : String} {bytes : Bytes} (h : writeString value = .ok bytes) :
    Reads readString bytes value := by
  obtain ⟨rfl, hlt⟩ := writeString_ok h
  have hutf8 : stringFromUtf8 (utf8 value) = .ok value := by
    rw [stringFromUtf8, ofUtf8_utf8]
  exact (readU32_reads hlt).bind ((readExact_reads (utf8 value)).check hutf8)

theorem readLifecycle_reads (lifecycle : ResourceLifecycleState) :
    Reads readLifecycle [encodeLifecycle lifecycle] lifecycle :=
  (readU8_reads _).check (by cases lifecycle <;> rfl)

theorem readTimestamps_reads {timestamps : ResourceTimestamps}
    (h : timestamps.updatedAtUnix < 256 ^ 8) : Reads readTimestamps
      (leBytes 8 timestamps.createdAtUnix ++ leBytes 8 timestamps.updatedAtUnix) timestamps := by
  have hcreated : timestamps.createdAtUnix < 256 ^ 8 := timestamps.ordered.trans_lt h
  refine (readU64_reads hcreated).bind ((readU64_reads h).check ?_)
  rw [ResourceTimestamps.new_eq]
  rfl

theorem readOrganizationId_reads {id : OrganizationId} {bytes : Bytes}
    (h : writeString id.asStr = .ok bytes) : Reads readOrganizationId bytes id := by
  refine (readString_reads h).check ?_
  rw [OrganizationId.new_asStr]
  rfl

theorem readProjectId_reads {id : ProjectId} {bytes : Bytes}
    (h : writeString id.asStr = .ok bytes) : Reads readProjectId bytes id := by
  refine (readString_reads h).check ?_
  rw [ProjectId.new_asStr]
  rfl

theorem readOrganization_reads {organization : Organization} {bytes : Bytes}
    (hrepresentable : organization.Representable)
    (h : writeOrganization organization = .ok bytes) :
    Reads readOrganization bytes organization := by
  obtain ⟨id, hid, h⟩ := except_bind_ok.mp h
  obtain ⟨name, hname, h⟩ := except_bind_ok.mp h
  obtain ⟨slug, hslug, h⟩ := except_bind_ok.mp h
  cases h
  refine (readOrganizationId_reads hid).bind ((readString_reads hname).bind
    ((readString_reads hslug).bind ((readLifecycle_reads organization.lifecycle).bind
      ((readTimestamps_reads hrepresentable.timestamps).check ?_))))
  rw [hrepresentable.new_eq]
  rfl

theorem readProject_reads {project : Project} {bytes : Bytes}
    (hrepresentable : project.Representable) (h : writeProject project = .ok bytes) :
    Reads readProject bytes project := by
  obtain ⟨id, hid, h⟩ := except_bind_ok.mp h
  obtain ⟨organizationId, horganizationId, h⟩ := except_bind_ok.mp h
  obtain ⟨name, hname, h⟩ := except_bind_ok.mp h
  obtain ⟨slug, hslug, h⟩ := except_bind_ok.mp h
  cases h
  refine (readProjectId_reads hid).bind ((readOrganizationId_reads horganizationId).bind
    ((readString_reads hname).bind ((readString_reads hslug).bind
      ((readLifecycle_reads project.lifecycle).bind
        ((readTimestamps_reads hrepresentable.timestamps).check ?_)))))
  rw [hrepresentable.new_eq]
  rfl

/-- Every resource stands under its own id, as its constructor made it. -/
structure Stored (state : ControlPlaneState) : Prop where
  organizationKeys : Keyed organizationKey state.organizations
  projectKeys : Keyed projectKey state.projects
  organization : ∀ organization ∈ values state.organizations, organization.Representable
  project : ∀ project ∈ values state.projects, project.Representable

theorem readState_reads {state : ControlPlaneState} {payload : Bytes} (hstored : state.Stored)
    (h : encodePayload state = .ok payload) : Reads readState payload state := by
  obtain ⟨organizationCount, horganizationCount, h⟩ := except_bind_ok.mp h
  obtain ⟨organizations, horganizations, h⟩ := except_bind_ok.mp h
  obtain ⟨projectCount, hprojectCount, h⟩ := except_bind_ok.mp h
  obtain ⟨projects, hprojects, h⟩ := except_bind_ok.mp h
  cases h
  obtain ⟨rfl, horganizationLt⟩ := writeU32_ok horganizationCount
  obtain ⟨rfl, hprojectLt⟩ := writeU32_ok hprojectCount
  have hreadOrganizations : Reads (Reader.timesDistinct readOrganization organizationKey
      (LoadError.corrupt "duplicate organization ID") [] (values state.organizations).length)
      organizations (values state.organizations) :=
    Reads.encodeAll_distinct (fun organization horganization _ => readOrganization_reads
      (hstored.organization organization horganization))
      hstored.organizationKeys.nodup (fun _ _ => List.not_mem_nil) horganizations
  have hreadProjects : Reads (Reader.timesDistinct readProject projectKey
      (LoadError.corrupt "duplicate project ID") [] (values state.projects).length)
      projects (values state.projects) :=
    Reads.encodeAll_distinct (fun project hproject _ => readProject_reads
      (hstored.project project hproject))
      hstored.projectKeys.nodup (fun _ _ => List.not_mem_nil) hprojects
  rw [length_values] at hreadOrganizations hreadProjects
  have hlast := hreadProjects.map (f := fun projects => (⟨ofValues organizationKey
    (values state.organizations), ofValues projectKey projects⟩ : ControlPlaneState))
  have htables : (⟨ofValues organizationKey (values state.organizations),
      ofValues projectKey (values state.projects)⟩ : ControlPlaneState) = state := by
    rw [ofValues_values hstored.organizationKeys, ofValues_values hstored.projectKeys]
  rw [htables] at hlast
  exact (readU32_reads horganizationLt).bind (hreadOrganizations.bind
    ((readU32_reads hprojectLt).bind hlast))

/-! ### Sizes -/

theorem size_of_validateIdentifier {kind value : String} {max : ℕ}
    (h : validateIdentifier kind value max = .ok ()) : (utf8 value).length ≤ max := by
  rw [length_utf8]
  unfold validateIdentifier at h
  split at h
  · cases h
  · split at h
    · cases h
    · omega

theorem size_of_identifier {kind value : String} {max : ℕ}
    (h : ControlPlane.validateIdentifier kind value max = .ok ()) : (utf8 value).length ≤ max :=
  size_of_validateIdentifier (mapError_ok_iff.mp h)

theorem ResourceName.size_le (name : ResourceName) : (utf8 name.asStr).length ≤ 256 := by
  have hvalid := name.valid
  rw [length_utf8]
  unfold ControlPlane.validateName at hvalid
  split at hvalid
  · cases hvalid
  · split at hvalid
    · cases hvalid
    · rename_i hlen
      unfold ControlPlane.maxResourceNameLen at hlen
      omega

theorem length_of_writeString {value : String} {bytes : Bytes} {max : ℕ}
    (h : writeString value = .ok bytes) (hsize : (utf8 value).length ≤ max) :
    bytes.length ≤ 4 + max := by
  obtain ⟨rfl, -⟩ := writeString_ok h
  rw [List.length_append, length_leBytes]
  omega

theorem length_encodeStatus (lifecycle : ResourceLifecycleState) (timestamps : ResourceTimestamps) :
    (encodeStatus lifecycle timestamps).length = 17 := by
  simp [encodeStatus]

theorem length_writeOrganization {organization : Organization} {bytes : Bytes}
    (h : writeOrganization organization = .ok bytes) : bytes.length ≤ 1024 := by
  obtain ⟨id, hid, h⟩ := except_bind_ok.mp h
  obtain ⟨name, hname, h⟩ := except_bind_ok.mp h
  obtain ⟨slug, hslug, h⟩ := except_bind_ok.mp h
  cases h
  have hidLen := length_of_writeString hid (size_of_identifier organization.id.valid)
  have hnameLen := length_of_writeString hname (ResourceName.size_le organization.name)
  have hslugLen := length_of_writeString hslug (size_of_identifier organization.slug.valid)
  unfold ControlPlane.maxOrganizationIdLen at hidLen
  unfold ControlPlane.maxResourceSlugLen at hslugLen
  simp only [List.length_append, length_encodeStatus]
  omega

theorem length_writeProject {project : Project} {bytes : Bytes}
    (h : writeProject project = .ok bytes) : bytes.length ≤ 1024 := by
  obtain ⟨id, hid, h⟩ := except_bind_ok.mp h
  obtain ⟨organizationId, horganizationId, h⟩ := except_bind_ok.mp h
  obtain ⟨name, hname, h⟩ := except_bind_ok.mp h
  obtain ⟨slug, hslug, h⟩ := except_bind_ok.mp h
  cases h
  have hidLen := length_of_writeString hid (size_of_validateIdentifier project.id.valid)
  have horganizationLen := length_of_writeString horganizationId
    (size_of_identifier project.organizationId.valid)
  have hnameLen := length_of_writeString hname (ResourceName.size_le project.name)
  have hslugLen := length_of_writeString hslug (size_of_identifier project.slug.valid)
  unfold maxProjectIdLen at hidLen
  unfold ControlPlane.maxOrganizationIdLen at horganizationLen
  unfold ControlPlane.maxResourceSlugLen at hslugLen
  simp only [List.length_append, length_encodeStatus]
  omega

/-- Both counts fit into 32 bits, and no entry is long. -/
theorem length_encodePayload {state : ControlPlaneState} {payload : Bytes}
    (h : encodePayload state = .ok payload) : headerLen + payload.length < 256 ^ 8 := by
  obtain ⟨organizationCount, horganizationCount, h⟩ := except_bind_ok.mp h
  obtain ⟨organizations, horganizations, h⟩ := except_bind_ok.mp h
  obtain ⟨projectCount, hprojectCount, h⟩ := except_bind_ok.mp h
  obtain ⟨projects, hprojects, h⟩ := except_bind_ok.mp h
  cases h
  obtain ⟨rfl, horganizationLt⟩ := writeU32_ok horganizationCount
  obtain ⟨rfl, hprojectLt⟩ := writeU32_ok hprojectCount
  have horganizationsLen := length_encodeAll_le
    (fun _ _ _ hencoding => length_writeOrganization hencoding) horganizations
  have hprojectsLen := length_encodeAll_le
    (fun _ _ _ hencoding => length_writeProject hencoding) hprojects
  rw [length_values] at horganizationsLen hprojectsLen
  simp only [List.length_append, length_leBytes, headerLen]
  omega

theorem writeString_exists {value : String} {max : ℕ} (hmax : max < 256 ^ 4)
    (h : (utf8 value).length ≤ max) : ∃ bytes, writeString value = .ok bytes :=
  ⟨_, except_bind_ok.mpr ⟨_, if_pos (h.trans_lt hmax), rfl⟩⟩

theorem writeOrganization_exists (organization : Organization) :
    ∃ bytes, writeOrganization organization = .ok bytes := by
  obtain ⟨id, hid⟩ := writeString_exists (by decide) (size_of_identifier organization.id.valid)
  obtain ⟨name, hname⟩ := writeString_exists (by decide) (ResourceName.size_le organization.name)
  obtain ⟨slug, hslug⟩ :=
    writeString_exists (by decide) (size_of_identifier organization.slug.valid)
  exact ⟨_, except_bind_ok.mpr ⟨id, hid, except_bind_ok.mpr ⟨name, hname,
    except_bind_ok.mpr ⟨slug, hslug, rfl⟩⟩⟩⟩

theorem writeProject_exists (project : Project) : ∃ bytes, writeProject project = .ok bytes := by
  obtain ⟨id, hid⟩ := writeString_exists (by decide) (size_of_validateIdentifier project.id.valid)
  obtain ⟨organizationId, horganizationId⟩ :=
    writeString_exists (by decide) (size_of_identifier project.organizationId.valid)
  obtain ⟨name, hname⟩ := writeString_exists (by decide) (ResourceName.size_le project.name)
  obtain ⟨slug, hslug⟩ := writeString_exists (by decide) (size_of_identifier project.slug.valid)
  exact ⟨_, except_bind_ok.mpr ⟨id, hid, except_bind_ok.mpr ⟨organizationId, horganizationId,
    except_bind_ok.mpr ⟨name, hname, except_bind_ok.mpr ⟨slug, hslug, rfl⟩⟩⟩⟩⟩

/-- Only the counts can be too large to be written. -/
theorem encodeState_exists {state : ControlPlaneState} (horganizations : state.organizations.size <
    256 ^ 4) (hprojects : state.projects.size < 256 ^ 4) :
    ∃ bytes, encodeState state = .ok bytes := by
  obtain ⟨organizations, horganizationBytes⟩ : ∃ bytes,
      encodeAll writeOrganization (values state.organizations) = .ok bytes :=
    encodeAll_exists fun organization _ => writeOrganization_exists organization
  obtain ⟨projects, hprojectBytes⟩ : ∃ bytes,
      encodeAll writeProject (values state.projects) = .ok bytes :=
    encodeAll_exists fun project _ => writeProject_exists project
  obtain ⟨payload, hpayload⟩ : ∃ payload, encodePayload state = .ok payload :=
    ⟨_, except_bind_ok.mpr ⟨_, if_pos horganizations, except_bind_ok.mpr ⟨organizations,
      horganizationBytes, except_bind_ok.mpr ⟨_, if_pos hprojects, except_bind_ok.mpr ⟨projects,
        hprojectBytes, rfl⟩⟩⟩⟩⟩
  have htotal := length_encodePayload hpayload
  refine ⟨format.encode payload, ?_⟩
  rw [encodeState, hpayload, except_ok_bind, if_pos (by omega)]
  rfl

/-- Loading a written state validates it. -/
theorem decodeState_encodeState {state : ControlPlaneState} {bytes : Bytes}
    (hstored : state.Stored) (h : encodeState state = .ok bytes) :
    decodeState bytes = (state.validateLoadedState.mapError .store).map fun _ => state := by
  obtain ⟨payload, hpayload, h⟩ := except_bind_ok.mp h
  have htotal := length_encodePayload hpayload
  have hlength : payload.length < 256 ^ 8 := by omega
  rw [if_pos hlength] at h
  cases h
  have hframe : format.decode (format.encode payload) = .ok payload := by
    refine Format.decode_encode rfl hlength ?_
    exact congrArg Except.ok (Nat.mod_eq_of_lt htotal)
  have hread := readState_reads hstored hpayload []
  rw [List.append_nil] at hread
  rw [decodeState, hframe, except_ok_bind, hread, except_ok_bind]
  cases hvalid : state.validateLoadedState with
  | ok _ =>
    simp only [ne_eq, not_true, if_false, hvalid]
    rfl
  | error error =>
    simp only [ne_eq, not_true, if_false, hvalid]
    rfl

end ControlPlaneState

end Ketebe
