import Ketebe.NamespaceCatalog

/-!
Owners of collection names. A sound catalog binds no id twice, and an id only in
the project that created it, or in the default project when it never had one.
The operations of the catalog keep it sound, also when they fail half way.
-/
namespace Ketebe

open Lib.ByteCodec Lib.Durable Lib.Durable.Program

/-! ### Sound catalogs -/

/-- The binding belongs to the project that created the id, or the id is a legacy
one, bound to itself in the default project. -/
def Owned (created : List DataPlaneScope) (legacy : CollectionId → Prop) (scope : DataPlaneScope)
    (name : String) : Prop :=
  scope ∈ created ∨
    scope.projectId = .defaultProject ∧ legacy scope.collectionId ∧ name = scope.collectionId.asStr

/-- The bindings are well formed and owned, and no id is bound twice. -/
structure CatalogFile.Sound (created : List DataPlaneScope) (legacy : CollectionId → Prop)
    (file : CatalogFile) : Prop where
  version : file.version = catalogVersion
  bindings : ∀ project name value : String, (file.names project)[name]? = some value →
    ∃ (scope : DataPlaneScope) (visible : CollectionName), scope.projectId.asStr = project ∧
      scope.collectionId.asStr = value ∧ visible.asStr = name ∧ Owned created legacy scope name
  once : ∀ project name project' name' value : String, (file.names project)[name]? = some value →
    (file.names project')[name']? = some value → project = project' ∧ name = name'

section Sound

variable {created : List DataPlaneScope} {legacy : CollectionId → Prop} {file file' : CatalogFile}
  {scope : DataPlaneScope} {name : String}

theorem Owned.mono {created' : List DataPlaneScope} (hsubset : created ⊆ created')
    (h : Owned created legacy scope name) : Owned created' legacy scope name :=
  h.imp_left fun hmem => hsubset hmem

namespace CatalogFile

theorem sound_default : default.Sound created legacy := by
  have hnames (project name : String) : (default.names project)[name]? = none := by
    simp [CatalogFile.names, default]
  refine ⟨rfl, fun project name value hbound => ?_, fun project name _ _ value hbound => ?_⟩
  · rw [hnames] at hbound
    cases hbound
  · rw [hnames] at hbound
    cases hbound

theorem Sound.mono {created' : List DataPlaneScope} (hsubset : created ⊆ created')
    (h : file.Sound created legacy) : file.Sound created' legacy := by
  refine ⟨h.version, fun project name value hbound => ?_, h.once⟩
  obtain ⟨scope, visible, hproject, hvalue, hname, howned⟩ := h.bindings project name value hbound
  exact ⟨scope, visible, hproject, hvalue, hname, howned.mono hsubset⟩

/-- Fewer bindings are as sound. -/
theorem Sound.shrink (h : file.Sound created legacy) (hversion : file'.version = file.version)
    (hsubset : ∀ project name value : String, (file'.names project)[name]? = some value →
      (file.names project)[name]? = some value) : file'.Sound created legacy :=
  ⟨hversion.trans h.version, fun project name value hbound =>
    h.bindings project name value (hsubset project name value hbound),
    fun project name project' name' value hbound hbound' =>
      h.once project name project' name' value (hsubset _ _ _ hbound) (hsubset _ _ _ hbound')⟩

/-- A new binding of an id that is bound nowhere else. -/
theorem Sound.bind (h : file.Sound created legacy) (scope : DataPlaneScope)
    (visible : CollectionName)
    (howned : Owned created legacy scope visible.asStr)
    (hnew : ∀ project name : String,
      (file.names project)[name]? = some scope.collectionId.asStr →
        project = scope.projectId.asStr ∧ name = visible.asStr) :
    (file.setNames scope.projectId.asStr ((file.names scope.projectId.asStr).insert visible.asStr
      scope.collectionId.asStr)).Sound created legacy := by
  have hcases (project name value : String)
      (hbound : ((file.setNames scope.projectId.asStr ((file.names scope.projectId.asStr).insert
        visible.asStr scope.collectionId.asStr)).names project)[name]? = some value) :
      (project = scope.projectId.asStr ∧ name = visible.asStr ∧
        value = scope.collectionId.asStr) ∨ (file.names project)[name]? = some value := by
    rw [names_setNames] at hbound
    by_cases hproject : scope.projectId.asStr = project
    · simp only [if_pos hproject, Std.ExtTreeMap.getElem?_insert, compare_eq_iff_eq] at hbound
      by_cases hname : visible.asStr = name
      · rw [if_pos hname] at hbound
        exact .inl ⟨hproject.symm, hname.symm, (Option.some.inj hbound).symm⟩
      · rw [if_neg hname, hproject] at hbound
        exact .inr hbound
    · rw [if_neg hproject] at hbound
      exact .inr hbound
  refine ⟨h.version, fun project name value hbound => ?_,
    fun project name project' name' value hbound hbound' => ?_⟩
  · rcases hcases project name value hbound with ⟨rfl, rfl, rfl⟩ | hold
    · exact ⟨scope, visible, rfl, rfl, rfl, howned⟩
    · exact h.bindings project name value hold
  · rcases hcases project name value hbound with ⟨rfl, rfl, rfl⟩ | hold
    · rcases hcases project' name' _ hbound' with ⟨rfl, rfl, -⟩ | hold'
      · exact ⟨rfl, rfl⟩
      · obtain ⟨rfl, rfl⟩ := hnew project' name' hold'
        exact ⟨rfl, rfl⟩
    · rcases hcases project' name' value hbound' with ⟨rfl, rfl, rfl⟩ | hold'
      · exact hnew project name hold
      · exact h.once project name project' name' value hold hold'

theorem projectIdOf_asStr (projectId : ProjectId) : projectIdOf projectId.asStr = .ok projectId := by
  have hnew : ProjectId.new projectId.asStr = .ok projectId := by
    unfold ProjectId.new
    split
    · rfl
    · rename_i error h
      rw [projectId.valid] at h
      cases h
  rw [projectIdOf, hnew]
  rfl

theorem names_of_mem_toList {entry : String × NameTable} (h : entry ∈ file.projects.toList) :
    file.names entry.1 = entry.2 := by
  rw [CatalogFile.names, Std.ExtTreeMap.getD_eq_getD_getElem?,
    Std.ExtTreeMap.mem_toList_iff_getElem?_eq_some.mp h]
  rfl

/-- The project of an id can always be looked up. -/
theorem Sound.find_ok (h : file.Sound created legacy) (collectionId : CollectionId) :
    ∃ found, file.findScopeByCollectionId collectionId = .ok found := by
  have hbound {entry : String × NameTable} (hentry : entry ∈ file.projects.toList)
      (hbinds : binds entry.2 collectionId) :
      ∃ name : String, (file.names entry.1)[name]? = some collectionId.asStr := by
    rw [names_of_mem_toList hentry]
    exact binds_iff.mp hbinds
  apply foldlM_findIn_ok
  · intro entry hentry hbinds
    obtain ⟨name, hname⟩ := hbound hentry hbinds
    obtain ⟨scope, -, hproject, -⟩ := h.bindings _ _ _ hname
    exact ⟨scope.projectId, hproject ▸ projectIdOf_asStr scope.projectId⟩
  · refine Std.ExtTreeMap.distinct_keys_toList.imp_of_mem fun {a b} ha hb hne hboth => ?_
    obtain ⟨name, hname⟩ := hbound ha hboth.1
    obtain ⟨name', hname'⟩ := hbound hb hboth.2
    exact hne (compare_eq_iff_eq.mpr (h.once _ _ _ _ _ hname hname').1)
  · exact nofun

theorem scope_eq_of_asStr {owner : DataPlaneScope}
    (hproject : owner.projectId.asStr = scope.projectId.asStr)
    (hid : owner.collectionId.asStr = scope.collectionId.asStr) : owner = scope := by
  obtain ⟨⟨project, hvalid⟩, ⟨id, hidValid⟩⟩ := owner
  cases hproject
  cases hid
  rfl

theorem Sound.owned_of_bound (h : file.Sound created legacy)
    (hbound : (file.names scope.projectId.asStr)[name]? = some scope.collectionId.asStr) :
    Owned created legacy scope name := by
  obtain ⟨owner, -, hproject, hid, -, howned⟩ := h.bindings _ _ _ hbound
  rwa [scope_eq_of_asStr hproject hid] at howned

/-- A collection id is also a name. -/
theorem collectionNameOf_collectionId (collectionId : CollectionId) :
    ∃ name, collectionNameOf collectionId.asStr = .ok name ∧
      name.asStr = collectionId.asStr := by
  have hvalid : validateIdentifier "collection name" collectionId.asStr maxCollectionNameLen =
      .ok () := by
    have hid := collectionId.valid
    unfold CollectionId.validate at hid
    unfold validateIdentifier
    split at hid
    · cases hid
    rename_i hempty
    split at hid
    · cases hid
    rename_i hlong
    have hlength : ¬maxCollectionNameLen < collectionId.asStr.utf8ByteSize := hlong
    rw [if_neg hempty, if_neg hlength]
    cases hfirst : firstInvalidCharacter 0 collectionId.asStr.toList with
    | some found =>
      rw [hfirst] at hid
      cases hid
    | none => rfl
  refine ⟨⟨collectionId.asStr, hvalid⟩, ?_, rfl⟩
  have hnew : CollectionName.new collectionId.asStr = .ok ⟨collectionId.asStr, hvalid⟩ := by
    unfold CollectionName.new
    split
    · rfl
    · rename_i error herror
      cases hvalid.symm.trans herror
  rw [collectionNameOf, hnew]
  rfl

theorem asStr_of_collectionNameOf {value : String} {visible : CollectionName}
    (h : collectionNameOf value = .ok visible) : visible.asStr = value := by
  rw [collectionNameOf, mapError_ok_iff] at h
  unfold CollectionName.new at h
  split at h
  · cases h
    rfl
  · cases h

/-- What a project lists is owned. -/
theorem Sound.owned_of_listProject {projectId : ProjectId}
    {listed : List (CollectionName × DataPlaneScope)} (h : file.Sound created legacy)
    (hlist : file.listProject projectId = .ok listed) :
    ∀ entry ∈ listed, entry.2.projectId = projectId ∧ Owned created legacy entry.2 entry.1.asStr := by
  intro entry hentry
  obtain ⟨⟨bound, value⟩, hbound, hentry⟩ := (mem_of_except_mapM hlist).1 entry hentry
  obtain ⟨visible, hvisible, hentry⟩ := except_bind_ok.mp hentry
  obtain ⟨collectionId, hid, hentry⟩ := except_bind_ok.mp hentry
  cases hentry
  refine ⟨rfl, h.owned_of_bound ?_⟩
  rw [asStr_of_collectionNameOf hvisible, ← collectionIdOf_ok_iff.mp hid]
  exact Std.ExtTreeMap.mem_toList_iff_getElem?_eq_some.mp hbound

end CatalogFile

end Sound

/-! ### The operations of the catalog -/

namespace CollectionNamespaceCatalog

variable {created : List DataPlaneScope} {legacy : CollectionId → Prop}
  {catalog : CollectionNamespaceCatalog}

/-- Both the catalog in memory and its file are sound. -/
structure Sound (created : List DataPlaneScope) (legacy : CollectionId → Prop)
    (catalog : CollectionNamespaceCatalog) : Prop where
  memory : catalog.memory.Sound created legacy
  disk : ∀ file, catalog.disk = some file → file.Sound created legacy

/-- The ids of created collections never had been collections without a project. -/
def Apart (created : List DataPlaneScope) (legacy : CollectionId → Prop) : Prop :=
  ∀ scope ∈ created, ¬legacy scope.collectionId

/-- However the program ends, the catalog is sound and its answer is as required. -/
def keeps {α : Type} {ε : Type} (created : List DataPlaneScope) (legacy : CollectionId → Prop)
    (answer : α → Prop) : Post CollectionNamespaceCatalog ε α :=
  ⟨fun value catalog => catalog.Sound created legacy ∧ answer value,
    fun _ catalog => catalog.Sound created legacy, fun catalog => catalog.Sound created legacy⟩

theorem ensures_persist {α : Type} {value : α} {answer : α → Prop}
    (h : catalog.Sound created legacy) (hanswer : answer value) :
    (do persist; pure value : CatalogProgram α).Ensures (keeps created legacy answer) catalog := by
  have hwritten : (⟨catalog.memory, some catalog.memory⟩ :
      CollectionNamespaceCatalog).Sound created legacy :=
    ⟨h.memory, fun file hfile => Option.some.inj hfile ▸ h.memory⟩
  exact ensures_bind (ensures_durableAtomic (ensures_pure ⟨hwritten, hanswer⟩) h h hwritten)

theorem Sound.mono {created' : List DataPlaneScope} (hsubset : created ⊆ created')
    (h : catalog.Sound created legacy) : catalog.Sound created' legacy :=
  ⟨h.memory.mono hsubset, fun file hfile => (h.disk file hfile).mono hsubset⟩

theorem Sound.setMemory {file : CatalogFile} (h : catalog.Sound created legacy)
    (hfile : file.Sound created legacy) : Sound created legacy { catalog with memory := file } :=
  ⟨hfile, h.disk⟩

theorem Sound.withProject (h : catalog.Sound created legacy) (project : String) :
    Sound created legacy { catalog with memory := catalog.memory.withProject project } := by
  have hfile : (catalog.memory.withProject project).Sound created legacy := by
    refine h.memory.shrink rfl fun other name value hbound => ?_
    rwa [CatalogFile.names_withProject] at hbound
  exact h.setMemory hfile

/-- A fresh id is bound nowhere. -/
theorem not_bound_of_fresh {file : CatalogFile} {collectionId : CollectionId}
    (h : file.Sound created legacy) (hlegacy : ¬legacy collectionId)
    (hcreated : ∀ scope ∈ created, scope.collectionId ≠ collectionId) (project name : String) :
    (file.names project)[name]? ≠ some collectionId.asStr := by
  intro hbound
  obtain ⟨owner, -, -, hid, -, howned⟩ := h.bindings _ _ _ hbound
  rcases howned with hmem | ⟨-, howner, -⟩
  · exact hcreated owner hmem (CollectionId.asStr_injective hid)
  · exact hlegacy (CollectionId.asStr_injective hid ▸ howner)

theorem create_keeps {projectId : ProjectId} {name : CollectionName}
    {entropy : Option (List UInt8)} {created' : List DataPlaneScope}
    (h : catalog.Sound created legacy) (hsubset : created ⊆ created')
    (hfresh : ∀ collectionId, name.asStr ∉ catalog.memory.names projectId.asStr →
      generateCollectionId entropy = .ok collectionId → ¬legacy collectionId ∧
        (∀ scope ∈ created, scope.collectionId ≠ collectionId) ∧
          ⟨projectId, collectionId⟩ ∈ created') :
    (create projectId name entropy).Ensures
      (keeps created' legacy fun scope => scope.projectId = projectId ∧ scope ∈ created')
      catalog := by
  have hopened := h.withProject projectId.asStr
  apply ensures_bind
  apply ensures_modify
  apply ensures_getBind
  simp only [CatalogFile.names_withProject]
  by_cases hname : name.asStr ∈ catalog.memory.names projectId.asStr
  · rw [if_pos hname]
    exact ensures_throw (hopened.mono hsubset)
  · rw [if_neg hname]
    apply ensures_bind
    refine ensures_lift (fun collectionId hid => ?_) fun _ _ => hopened.mono hsubset
    obtain ⟨hlegacy, hcreated, hmem⟩ := hfresh collectionId hname hid
    have hnew := (hopened.memory.mono hsubset).bind ⟨projectId, collectionId⟩ name
      (.inl hmem) fun project other hbound =>
        absurd hbound (not_bound_of_fresh hopened.memory hlegacy hcreated project other)
    apply ensures_bind
    apply ensures_modify
    refine ensures_persist ((hopened.mono hsubset).setMemory ?_) ⟨rfl, hmem⟩
    simpa only [CatalogFile.names_withProject] using hnew

theorem names_erase (file : CatalogFile) (project other : String) :
    ({ file with projects := file.projects.erase project } : CatalogFile).names other =
      if project = other then ∅ else file.names other := by
  simp only [CatalogFile.names, Std.ExtTreeMap.getD_erase, compare_eq_iff_eq]

theorem remove_keeps {projectId : ProjectId} {name : CollectionName} {expected : CollectionId}
    (h : catalog.Sound created legacy) :
    (remove projectId name expected).Ensures (keeps created legacy fun _ => True) catalog := by
  apply ensures_getBind
  cases hproject : catalog.memory.projects[projectId.asStr]? with
  | none => exact ensures_pure ⟨h, trivial⟩
  | some collections =>
    have hnames : catalog.memory.names projectId.asStr = collections := by
      rw [CatalogFile.names, Std.ExtTreeMap.getD_eq_getD_getElem?, hproject]
      rfl
    simp only
    split
    · exact ensures_pure ⟨h, trivial⟩
    apply ensures_bind
    apply ensures_modify
    refine ensures_persist (h.setMemory ?_) trivial
    split
    · refine h.memory.shrink rfl fun project visible value hbound => ?_
      rw [names_erase] at hbound
      split at hbound
      · simp at hbound
      · exact hbound
    · refine h.memory.shrink rfl fun project visible value hbound => ?_
      rw [CatalogFile.names_setNames] at hbound
      split at hbound
      · rename_i hsame
        rw [← hsame, hnames]
        simp only [Std.ExtTreeMap.getElem?_erase] at hbound
        split at hbound
        · cases hbound
        · exact hbound
      · exact hbound

theorem bindLegacyDefault_keeps {collectionId : CollectionId}
    (h : catalog.Sound created legacy) (hapart : Apart created legacy)
    (hlegacy : legacy collectionId) :
    (bindLegacyDefault collectionId).Ensures
      (keeps created legacy fun scope => scope = .legacyDefault collectionId) catalog := by
  have hopened := h.withProject ProjectId.defaultProject.asStr
  apply ensures_bind
  refine ensures_lift (fun name hname => ?_) fun _ _ => h
  have hvisible := CatalogFile.asStr_of_collectionNameOf hname
  apply ensures_bind
  apply ensures_modify
  apply ensures_getBind
  simp only [CatalogFile.names_withProject]
  split
  · split
    · exact ensures_throw hopened
    · exact ensures_pure ⟨hopened, rfl⟩
  · have hnew := hopened.memory.bind (.legacyDefault collectionId) name
      (.inr ⟨rfl, hlegacy, hvisible⟩) fun project other hbound => by
        obtain ⟨owner, -, hproject, hid, -, howned⟩ := hopened.memory.bindings _ _ _ hbound
        have hsame : owner.collectionId = collectionId := CollectionId.asStr_injective hid
        rcases howned with hmem | ⟨hdefault, -, hother⟩
        · exact absurd (hsame ▸ hlegacy) (hapart owner hmem)
        · rw [hdefault] at hproject
          rw [hsame] at hother
          exact ⟨hproject.symm, hother.trans hvisible.symm⟩
    apply ensures_bind
    apply ensures_modify
    rw [CatalogFile.names_withProject] at hnew
    exact ensures_persist (hopened.setMemory hnew) rfl

/-- The catalog file with one more binding. -/
def withBinding (file : CatalogFile) (scope : DataPlaneScope) (name : CollectionName) :
    CatalogFile :=
  (file.withProject scope.projectId.asStr).setNames scope.projectId.asStr
    ((file.names scope.projectId.asStr).insert name.asStr scope.collectionId.asStr)

theorem bound_withBinding (file : CatalogFile) (scope : DataPlaneScope) (name : CollectionName) :
    (withBinding file scope name).Bound scope name := by
  rw [CatalogFile.Bound, withBinding, CatalogFile.names_setNames, if_pos rfl]
  exact Std.ExtTreeMap.getElem?_insert_self

theorem names_withBinding_of_ne (file : CatalogFile) {scope : DataPlaneScope} {project : String}
    (name : CollectionName) (h : scope.projectId.asStr ≠ project) :
    (withBinding file scope name).names project = file.names project := by
  rw [withBinding, CatalogFile.names_setNames, if_neg h, CatalogFile.names_withProject]

theorem create_returns {projectId : ProjectId} {name : CollectionName}
    {entropy : Option (List UInt8)} {collectionId : CollectionId}
    (hname : name.asStr ∉ catalog.memory.names projectId.asStr)
    (hid : generateCollectionId entropy = .ok collectionId) :
    (create projectId name entropy).Returns catalog ⟨projectId, collectionId⟩
      ⟨withBinding catalog.memory ⟨projectId, collectionId⟩ name,
        some (withBinding catalog.memory ⟨projectId, collectionId⟩ name)⟩ := by
  apply returns_bind returns_modify
  apply returns_getBind
  simp only [CatalogFile.names_withProject, if_neg hname]
  apply returns_bind (returns_lift hid)
  apply returns_bind returns_modify
  exact returns_bind returns_durableAtomic returns_pure

theorem bindLegacyDefault_returns {collectionId : CollectionId} {name : CollectionName}
    (hname : CatalogFile.collectionNameOf collectionId.asStr = .ok name)
    (hnew : name.asStr ∉ catalog.memory.names ProjectId.defaultProject.asStr) :
    (bindLegacyDefault collectionId).Returns catalog (.legacyDefault collectionId)
      ⟨withBinding catalog.memory (.legacyDefault collectionId) name,
        some (withBinding catalog.memory (.legacyDefault collectionId) name)⟩ := by
  apply returns_bind (returns_lift hname)
  apply returns_bind returns_modify
  apply returns_getBind
  simp only [CatalogFile.names_withProject, Std.ExtTreeMap.getElem?_eq_none hnew]
  apply returns_bind returns_modify
  exact returns_bind returns_durableAtomic returns_pure

end CollectionNamespaceCatalog

end Ketebe
