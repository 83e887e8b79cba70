import Ketebe.Authentication
import Ketebe.Lib.ByteCodec
import Ketebe.Lib.Durable
import Std.Data.ExtTreeMap

/-!
The durable catalog of collection names. A project maps the names that its users
see to stable collection ids. The catalog is kept in memory and written whole
after each change, so a failed write leaves the change in memory only.
-/
namespace Ketebe

open Lib.ByteCodec Lib.Durable Lib.Durable.Program

abbrev NameTable := Std.ExtTreeMap String String compare

def catalogVersion : ℕ := 1

structure CatalogFile where
  version : ℕ
  projects : Std.ExtTreeMap String NameTable compare

inductive CollectionNamespaceError where
  | io
  | unsupportedVersion (version : ℕ)
  | nameAlreadyExists
  | legacyBindingConflict
  | entropyUnavailable
  | corruptId (message : String)
  deriving DecidableEq, Repr

namespace CatalogFile

def default : CatalogFile := ⟨catalogVersion, ∅⟩

/-- The names of a project; an unknown project has none. -/
def names (file : CatalogFile) (project : String) : NameTable := file.projects.getD project ∅

/-- `entry(project).or_default()`. -/
def withProject (file : CatalogFile) (project : String) : CatalogFile :=
  { file with projects := file.projects.insertIfNew project ∅ }

def setNames (file : CatalogFile) (project : String) (names : NameTable) : CatalogFile :=
  { file with projects := file.projects.insert project names }

def projectIdOf (project : String) : Except CollectionNamespaceError ProjectId :=
  (ProjectId.new project).mapError fun error => .corruptId error.display

def collectionIdOf (value : String) : Except CollectionNamespaceError CollectionId :=
  (CollectionId.new value).mapError fun error => .corruptId error.display

def collectionNameOf (value : String) : Except CollectionNamespaceError CollectionName :=
  (CollectionName.new value).mapError fun error => .corruptId error.display

def resolve (file : CatalogFile) (projectId : ProjectId) (name : CollectionName) :
    Except CollectionNamespaceError (Option DataPlaneScope) :=
  match (file.projects[projectId.asStr]?).bind fun collections => collections[name.asStr]? with
  | none => .ok none
  | some value => (collectionIdOf value).map fun collectionId => some ⟨projectId, collectionId⟩

/-- Whether some name is bound to the id. -/
def binds (collections : NameTable) (collectionId : CollectionId) : Bool :=
  collections.toList.any fun binding => binding.2 = collectionId.asStr

/-- The loop body of `find_scope_by_collection_id`. -/
def findIn (collectionId : CollectionId) (found : Option DataPlaneScope)
    (entry : String × NameTable) : Except CollectionNamespaceError (Option DataPlaneScope) :=
  if binds entry.2 collectionId then do
    let projectId ← projectIdOf entry.1
    if found.isSome then
      throw (.corruptId "stable collection ID is bound to multiple projects")
    else pure (some ⟨projectId, collectionId⟩)
  else pure found

def findScopeByCollectionId (file : CatalogFile) (collectionId : CollectionId) :
    Except CollectionNamespaceError (Option DataPlaneScope) :=
  file.projects.toList.foldlM (findIn collectionId) none

def listProject (file : CatalogFile) (projectId : ProjectId) :
    Except CollectionNamespaceError (List (CollectionName × DataPlaneScope)) :=
  (file.names projectId.asStr).toList.mapM fun binding => do
    let name ← collectionNameOf binding.1
    let collectionId ← collectionIdOf binding.2
    pure (name, ⟨projectId, collectionId⟩)

end CatalogFile

def hexDigit (value : ℕ) : Char := (Nat.digitChar (value % 16))

def hexByte (byte : UInt8) : List Char := [hexDigit (byte.toNat / 16), hexDigit byte.toNat]

/-- The id that 16 random bytes give. -/
def generateCollectionId (entropy : Option (List UInt8)) :
    Except CollectionNamespaceError CollectionId :=
  match entropy with
  | none => .error .entropyUnavailable
  | some bytes => CatalogFile.collectionIdOf (String.ofList ('c' :: '_' :: bytes.flatMap hexByte))

/-- The catalog of a running server and its file. -/
structure CollectionNamespaceCatalog where
  memory : CatalogFile
  disk : Option CatalogFile

namespace CollectionNamespaceCatalog

def openFile (disk : Option CatalogFile) : Except CollectionNamespaceError CatalogFile :=
  match disk with
  | none => .ok .default
  | some decoded =>
      if decoded.version ≠ catalogVersion then .error (.unsupportedVersion decoded.version)
      else .ok decoded

abbrev CatalogProgram := Program CollectionNamespaceCatalog CollectionNamespaceError

def setMemory (file : CatalogFile) : CatalogProgram Unit :=
  modify fun catalog => { catalog with memory := file }

/-- Writes the catalog in memory to a temporary file and renames that. -/
def persist : CatalogProgram Unit :=
  durableAtomic .io fun catalog => { catalog with disk := some catalog.memory }

def create (projectId : ProjectId) (name : CollectionName) (entropy : Option (List UInt8)) :
    CatalogProgram DataPlaneScope := do
  modify fun catalog => { catalog with memory := catalog.memory.withProject projectId.asStr }
  let catalog ← get
  let collections := catalog.memory.names projectId.asStr
  if name.asStr ∈ collections then throw .nameAlreadyExists
  else do
    let collectionId ← lift (generateCollectionId entropy)
    setMemory (catalog.memory.setNames projectId.asStr
      (collections.insert name.asStr collectionId.asStr))
    persist
    pure ⟨projectId, collectionId⟩

/-- Removes a name while it is still bound to the expected id. -/
def remove (projectId : ProjectId) (name : CollectionName) (expected : CollectionId) :
    CatalogProgram Bool := do
  let catalog ← get
  match catalog.memory.projects[projectId.asStr]? with
  | none => pure false
  | some collections =>
      if collections[name.asStr]? ≠ some expected.asStr then pure false
      else do
        let remaining := collections.erase name.asStr
        setMemory (if remaining.isEmpty then
            { catalog.memory with projects := catalog.memory.projects.erase projectId.asStr }
          else catalog.memory.setNames projectId.asStr remaining)
        persist
        pure true

/-- Binds a legacy collection to its own id as the name in the default project. -/
def bindLegacyDefault (collectionId : CollectionId) : CatalogProgram DataPlaneScope := do
  let name ← lift (CatalogFile.collectionNameOf collectionId.asStr)
  modify fun catalog =>
    { catalog with memory := catalog.memory.withProject ProjectId.defaultProject.asStr }
  let catalog ← get
  let collections := catalog.memory.names ProjectId.defaultProject.asStr
  match collections[name.asStr]? with
  | some existing =>
      if existing ≠ collectionId.asStr then throw .legacyBindingConflict
      else pure ⟨.defaultProject, collectionId⟩
  | none => do
      setMemory (catalog.memory.setNames ProjectId.defaultProject.asStr
        (collections.insert name.asStr collectionId.asStr))
      persist
      pure ⟨.defaultProject, collectionId⟩

end CollectionNamespaceCatalog

/-! ### Bindings -/

namespace CatalogFile

variable {file : CatalogFile} {collectionId : CollectionId}

@[simp] theorem names_setNames (project other : String) (names : NameTable) :
    (file.setNames project names).names other = if project = other then names else file.names other := by
  simp only [CatalogFile.names, setNames, Std.ExtTreeMap.getD_insert, compare_eq_iff_eq]

@[simp] theorem names_withProject (project other : String) :
    (file.withProject project).names other = file.names other := by
  simp only [CatalogFile.names, withProject, Std.ExtTreeMap.getD_eq_getD_getElem?,
    Std.ExtTreeMap.getElem?_insertIfNew, compare_eq_iff_eq]
  split
  · rename_i h
    obtain ⟨rfl, hnew⟩ := h
    rw [Std.ExtTreeMap.getElem?_eq_none hnew]
    rfl
  · rfl

/-- The name is bound to the id in the project. -/
def Bound (file : CatalogFile) (scope : DataPlaneScope) (name : CollectionName) : Prop :=
  (file.names scope.projectId.asStr)[name.asStr]? = some scope.collectionId.asStr

theorem resolve_eq (projectId : ProjectId) (name : CollectionName) :
    file.resolve projectId name = match (file.names projectId.asStr)[name.asStr]? with
      | none => .ok none
      | some value => (collectionIdOf value).map fun collectionId =>
          some ⟨projectId, collectionId⟩ := by
  unfold resolve CatalogFile.names
  rw [Std.ExtTreeMap.getD_eq_getD_getElem?]
  cases file.projects[projectId.asStr]? with
  | none => simp
  | some collections => rfl

theorem collectionIdOf_ok_iff {value : String} :
    collectionIdOf value = .ok collectionId ↔ value = collectionId.asStr := by
  rw [collectionIdOf, mapError_ok_iff]
  constructor
  · exact fun h => (CollectionId.asStr_of_new h).symm
  · rintro rfl
    exact CollectionId.new_asStr collectionId

/-- A name resolves to what it is bound to. -/
theorem bound_of_resolve {projectId : ProjectId} {name : CollectionName} {scope : DataPlaneScope}
    (h : file.resolve projectId name = .ok (some scope)) :
    scope.projectId = projectId ∧ file.Bound scope name := by
  rw [resolve_eq] at h
  cases hvalue : (file.names projectId.asStr)[name.asStr]? with
  | none =>
    rw [hvalue] at h
    cases h
  | some value =>
    simp only [hvalue] at h
    cases hid : collectionIdOf value with
    | error error =>
      rw [hid] at h
      cases h
    | ok collectionId =>
      rw [hid] at h
      cases h
      refine ⟨rfl, ?_⟩
      rw [Bound, hvalue, collectionIdOf_ok_iff.mp hid]

theorem binds_iff {collections : NameTable} :
    binds collections collectionId ↔ ∃ name : String, collections[name]? = some collectionId.asStr := by
  simp only [binds, List.any_eq_true, decide_eq_true_eq, Prod.exists,
    Std.ExtTreeMap.mem_toList_iff_getElem?_eq_some]
  exact ⟨fun ⟨name, value, hname, hvalue⟩ => ⟨name, hvalue ▸ hname⟩, fun ⟨name, hname⟩ =>
    ⟨name, _, hname, rfl⟩⟩

/-! ### Looking for the project of an id -/

theorem foldlM_findIn_ok {entries : List (String × NameTable)} {found : Option DataPlaneScope}
    (hprojects : ∀ entry ∈ entries, binds entry.2 collectionId →
      ∃ projectId, projectIdOf entry.1 = .ok projectId)
    (honce : entries.Pairwise fun a b => ¬(binds a.2 collectionId ∧ binds b.2 collectionId))
    (hfound : found.isSome → ∀ entry ∈ entries, ¬binds entry.2 collectionId) :
    ∃ result, entries.foldlM (findIn collectionId) found = .ok result := by
  induction entries generalizing found with
  | nil => exact ⟨found, rfl⟩
  | cons entry rest ih =>
    obtain ⟨hhead, hrest⟩ := List.forall_mem_cons.mp hprojects
    obtain ⟨hother, hpairs⟩ := List.pairwise_cons.mp honce
    by_cases hbinds : binds entry.2 collectionId
    · obtain ⟨projectId, hproject⟩ := hhead hbinds
      have hnone : found = none := by
        cases found with
        | none => rfl
        | some scope => exact absurd hbinds (hfound rfl entry (List.mem_cons_self ..))
      subst hnone
      have hfirst : findIn collectionId none entry = .ok (some ⟨projectId, collectionId⟩) := by
        simp only [findIn, hbinds, if_true, hproject, except_ok_bind]
        rfl
      rw [List.foldlM_cons, hfirst, except_ok_bind]
      exact ih hrest hpairs fun _ other hmem hbound => hother other hmem ⟨hbinds, hbound⟩
    · have hfirst : findIn collectionId found entry = .ok found := by
        simp only [findIn, hbinds]
        rfl
      rw [List.foldlM_cons, hfirst, except_ok_bind]
      exact ih hrest hpairs fun hsome other hmem =>
        hfound hsome other (List.mem_cons_of_mem _ hmem)

theorem foldlM_findIn_error {entries : List (String × NameTable)} {found : Option DataPlaneScope}
    {result : Option DataPlaneScope} (hsome : found.isSome)
    (h : entries.foldlM (findIn collectionId) found = .ok result) :
    ∀ entry ∈ entries, ¬binds entry.2 collectionId := by
  induction entries generalizing found with
  | nil => exact nofun
  | cons entry rest ih =>
    rw [List.foldlM_cons] at h
    obtain ⟨next, hnext, h⟩ := except_bind_ok.mp h
    by_cases hbinds : binds entry.2 collectionId
    · simp only [findIn, hbinds, if_true, hsome] at hnext
      obtain ⟨projectId, -, hnext⟩ := except_bind_ok.mp hnext
      cases hnext
    · simp only [findIn, hbinds] at hnext
      cases hnext
      exact List.forall_mem_cons.mpr ⟨hbinds, ih hsome h⟩

/-- Two projects that bind an id make every lookup of the id fail. -/
theorem not_binds_twice {entries : List (String × NameTable)} {found result : Option DataPlaneScope}
    (h : entries.foldlM (findIn collectionId) found = .ok result) :
    entries.Pairwise fun a b => ¬(binds a.2 collectionId ∧ binds b.2 collectionId) := by
  induction entries generalizing found with
  | nil => exact List.Pairwise.nil
  | cons entry rest ih =>
    rw [List.foldlM_cons] at h
    obtain ⟨next, hnext, h⟩ := except_bind_ok.mp h
    refine List.pairwise_cons.mpr ⟨fun other hother hboth => ?_, ih h⟩
    have hsome : next.isSome := by
      simp only [findIn, hboth.1, if_true] at hnext
      obtain ⟨projectId, -, hnext⟩ := except_bind_ok.mp hnext
      split at hnext
      · cases hnext
      · cases hnext
        rfl
    exact foldlM_findIn_error hsome h other hother hboth.2

end CatalogFile

end Ketebe
