import Ketebe.DataPlaneRequest
import Ketebe.Lib.Runs
import Ketebe.NamespaceOwnership

/-!
Tenant isolation of collection names over runs of requests, restarts and crashes.
Only the bridge for old collections can break it: a request of the default
project that names the stable id of a running collection of another project.
-/
namespace Ketebe

open Lib.ByteCodec Lib.Durable Lib.Durable.Program Lib.Runs CollectionNamespaceCatalog

namespace DataPlane

variable {created : List DataPlaneScope} {legacy : CollectionId → Prop} {state : DataPlane}
  {principal : Principal}

/-- However a request ends, the catalog is sound and the runtimes are as before. -/
def keeps {α : Type} (runtimes : Std.ExtTreeMap CollectionId (Option DataPlaneScope) compare)
    (created : List DataPlaneScope) (legacy : CollectionId → Prop) (answer : α → Prop) :
    Post DataPlane DataPlaneRequestError α :=
  let kept (state : DataPlane) := state.catalog.Sound created legacy ∧ state.runtimes = runtimes
  ⟨fun value state => kept state ∧ answer value, fun _ state => kept state, kept⟩

/-- What a principal may be told: a collection that its project created, or one
without a project when that is the default project. -/
def Granted (created : List DataPlaneScope) (legacy : CollectionId → Prop) (principal : Principal)
    (scope : DataPlaneScope) : Prop :=
  principalProject principal = .ok scope.projectId ∧
    (scope ∈ created ∨ scope.projectId = .defaultProject ∧ legacy scope.collectionId)

theorem keeps_mono {α : Type} {program : RequestProgram α} {answer answer' : α → Prop}
    {runtimes : Std.ExtTreeMap CollectionId (Option DataPlaneScope) compare}
    (h : program.Ensures (keeps runtimes created legacy answer) state)
    (hanswer : ∀ value, answer value → answer' value) :
    program.Ensures (keeps runtimes created legacy answer') state :=
  h.mono (fun value _ hkept => ⟨hkept.1, hanswer value hkept.2⟩) (fun _ _ hkept => hkept)
    fun _ hkept => hkept

theorem inCatalog_keeps {α : Type} {answer : α → Prop}
    {liftError : CollectionNamespaceError → DataPlaneRequestError}
    {program : Program CollectionNamespaceCatalog CollectionNamespaceError α}
    (h : program.Ensures (CollectionNamespaceCatalog.keeps created legacy answer) state.catalog) :
    (inCatalog liftError program).Ensures (keeps state.runtimes created legacy answer) state := by
  apply ensures_onPart
  apply ensures_mapError
  exact h.mono (fun _ _ hkept => ⟨⟨hkept.1, rfl⟩, hkept.2⟩) (fun _ _ hkept => ⟨hkept, rfl⟩)
    fun _ hkept => ⟨hkept, rfl⟩

theorem requestProject_keeps {α : Type} {answer : α → Prop} {next : ProjectId → RequestProgram α}
    (h : state.catalog.Sound created legacy)
    (hnext : ∀ projectId, principalProject principal = .ok projectId →
      (next projectId).Ensures (keeps state.runtimes created legacy answer) state) :
    (requestProject principal >>= next).Ensures (keeps state.runtimes created legacy answer)
      state := by
  apply ensures_bind
  exact ensures_lift (fun projectId hproject => hnext projectId (mapError_ok_iff.mp hproject))
    fun _ _ => ⟨h, rfl⟩

theorem requestedName_keeps {α : Type} {collectionName : String} {answer : α → Prop}
    {next : CollectionName → RequestProgram α} (h : state.catalog.Sound created legacy)
    (hnext : ∀ name, CollectionName.new collectionName = .ok name →
      (next name).Ensures (keeps state.runtimes created legacy answer) state) :
    (requestedName collectionName >>= next).Ensures (keeps state.runtimes created legacy answer)
      state := by
  apply ensures_bind
  exact ensures_lift (fun name hname => hnext name (mapError_ok_iff.mp hname))
    fun _ _ => ⟨h, rfl⟩

/-- The scope that a creation draws, unless it fails before. -/
def draws (state : DataPlane) (principal : Principal) (collectionName : String)
    (entropy : Option (List UInt8)) : Option DataPlaneScope :=
  match CollectionName.new collectionName, principalProject principal,
      generateCollectionId entropy with
  | .ok name, .ok projectId, .ok collectionId =>
      if name.asStr ∈ state.catalog.memory.names projectId.asStr then none
      else some ⟨projectId, collectionId⟩
  | _, _, _ => none

theorem createScope_keeps {collectionName : String} {entropy : Option (List UInt8)}
    (h : state.catalog.Sound created legacy)
    (hfresh : ∀ scope ∈ state.draws principal collectionName entropy,
      ¬legacy scope.collectionId ∧ ∀ other ∈ created, other.collectionId ≠ scope.collectionId) :
    (createScope principal collectionName entropy).Ensures
      (keeps state.runtimes ((state.draws principal collectionName entropy).toList ++ created) legacy
        (Granted ((state.draws principal collectionName entropy).toList ++ created) legacy
          principal)) state := by
  have hsubset := List.subset_append_right
    (state.draws principal collectionName entropy).toList created
  apply requestedName_keeps (h.mono hsubset)
  intro name hname
  apply requestProject_keeps (h.mono hsubset)
  intro projectId hproject
  refine keeps_mono (inCatalog_keeps (create_keeps h hsubset fun collectionId hnew hid => ?_))
    fun scope hanswer => ⟨hanswer.1 ▸ hproject, .inl hanswer.2⟩
  have hdraws : state.draws principal collectionName entropy = some ⟨projectId, collectionId⟩ := by
    simp only [draws, hname, hproject, hid, if_neg hnew]
  obtain ⟨hlegacy, hcreated⟩ := hfresh _ hdraws
  refine ⟨hlegacy, hcreated, ?_⟩
  rw [hdraws]
  exact List.mem_append_left _ (List.mem_singleton.mpr rfl)

theorem granted_of_owned {scope : DataPlaneScope} {name : String}
    (hproject : principalProject principal = .ok scope.projectId)
    (howned : Owned created legacy scope name) : Granted created legacy principal scope :=
  ⟨hproject, howned.imp_right fun hlegacy => ⟨hlegacy.1, hlegacy.2.1⟩⟩

theorem principalProject_default
    (h : principal.workloadProjectId = some ProjectId.defaultProject.asStr) :
    principalProject principal = .ok .defaultProject := by
  have hnew := CatalogFile.projectIdOf_asStr .defaultProject
  rw [CatalogFile.projectIdOf, mapError_ok_iff] at hnew
  rw [principalProject, h]
  simp only [hnew]
  rfl

/-- The bridge serves principals of the default project only. -/
theorem principal_of_bridge {collectionName : String} {collectionId : CollectionId}
    (h : state.bridge principal collectionName = some collectionId) :
    principalProject principal = .ok .defaultProject := by
  unfold bridge at h
  split at h
  · rename_i hdefault
    exact principalProject_default hdefault
  · cases h

/-- The request meets the bridge: its name is unknown, and names a running collection. -/
def Bridged (state : DataPlane) (principal : Principal) (collectionName : String)
    (collectionId : CollectionId) : Prop :=
  ∃ name projectId, CollectionName.new collectionName = .ok name ∧
    principalProject principal = .ok projectId ∧
      state.catalog.memory.resolve projectId name = .ok none ∧
        state.bridge principal collectionName = some collectionId

theorem resolveExistingScope_keeps {collectionName : String}
    (h : state.catalog.Sound created legacy) (hapart : Apart created legacy)
    (hbridged : ∀ collectionId, state.Bridged principal collectionName collectionId →
      legacy collectionId) :
    (resolveExistingScope principal collectionName).Ensures
      (keeps state.runtimes created legacy (Granted created legacy principal)) state := by
  apply requestedName_keeps h
  intro name hname
  apply requestProject_keeps h
  intro projectId hproject
  apply ensures_getBind
  apply ensures_bind
  refine ensures_lift (fun found hfound => ?_) fun _ _ => ⟨h, rfl⟩
  have hresolve := mapError_ok_iff.mp hfound
  cases found with
  | some scope =>
    obtain ⟨rfl, hbound⟩ := CatalogFile.bound_of_resolve hresolve
    exact ensures_pure ⟨⟨h, rfl⟩, granted_of_owned hproject (h.memory.owned_of_bound hbound)⟩
  | none =>
    cases hbridge : state.bridge principal collectionName with
    | none => exact ensures_throw ⟨h, rfl⟩
    | some collectionId =>
      have hlegacy := hbridged collectionId ⟨name, projectId, hname, hproject, hresolve, hbridge⟩
      refine keeps_mono (inCatalog_keeps (bindLegacyDefault_keeps h hapart hlegacy)) ?_
      rintro scope rfl
      exact ⟨principal_of_bridge hbridge, .inr ⟨rfl, hlegacy⟩⟩

theorem removeScope_keeps {collectionName : String} {collectionId : CollectionId}
    (h : state.catalog.Sound created legacy) :
    (removeScope principal collectionName collectionId).Ensures
      (keeps state.runtimes created legacy fun _ => True) state := by
  apply requestProject_keeps h
  intro projectId hproject
  apply requestedName_keeps h
  intro name hname
  apply ensures_bind
  exact (inCatalog_keeps (remove_keeps h)).mono (fun _ _ hkept => ensures_pure ⟨hkept.1, trivial⟩)
    (fun _ _ hkept => hkept) fun _ hkept => hkept

theorem legacy_of_mem_legacyIds (hruntimes : ∀ collectionId, state.runtimes[collectionId]? =
    some none → legacy collectionId) : ∀ collectionId ∈ state.legacyIds, legacy collectionId := by
  intro collectionId hmem
  obtain ⟨⟨_, scope⟩, hentry, rfl⟩ := List.mem_map.mp hmem
  obtain ⟨hentry, hnone⟩ := List.mem_filter.mp hentry
  cases scope with
  | none => exact hruntimes _ (Std.ExtTreeMap.mem_toList_iff_getElem?_eq_some.mp hentry)
  | some scope => cases hnone

theorem bindUnlessFound_keeps {collectionId : CollectionId}
    (h : state.catalog.Sound created legacy) (hapart : Apart created legacy)
    (hlegacy : legacy collectionId) :
    (bindUnlessFound collectionId).Ensures (keeps state.runtimes created legacy fun _ => True)
      state := by
  apply ensures_getBind
  apply ensures_bind
  refine ensures_lift (fun found _ => ?_) fun _ _ => ⟨h, rfl⟩
  by_cases hfound : found.isNone
  · simp only [Post.withOk, if_pos hfound]
    apply ensures_bind
    exact (inCatalog_keeps (bindLegacyDefault_keeps h hapart hlegacy)).mono
      (fun _ _ hkept => ensures_pure ⟨hkept.1, trivial⟩) (fun _ _ hkept => hkept)
      fun _ hkept => hkept
  · simp only [Post.withOk, if_neg hfound]
    exact ensures_pure ⟨⟨h, rfl⟩, trivial⟩

theorem bindLegacyRuntimes_keeps {projectId : ProjectId}
    (h : state.catalog.Sound created legacy) (hapart : Apart created legacy)
    (hruntimes : ∀ collectionId, state.runtimes[collectionId]? = some none → legacy collectionId) :
    (bindLegacyRuntimes projectId).Ensures (keeps state.runtimes created legacy fun _ => True)
      state := by
  apply ensures_getBind
  split
  · refine ensures_forEach (I := fun s => s.catalog.Sound created legacy ∧
      s.runtimes = state.runtimes) ⟨h, rfl⟩ (fun collectionId hmem s hs => ?_)
      fun s hs => ⟨hs, trivial⟩
    have hbound := bindUnlessFound_keeps hs.1 hapart (legacy_of_mem_legacyIds hruntimes _ hmem)
    rw [hs.2] at hbound
    exact hbound.mono (fun _ _ hkept => hkept.1) (fun _ _ hkept => hkept) fun _ hkept => hkept
  · exact ensures_pure ⟨⟨h, rfl⟩, trivial⟩

theorem listProjectScopes_keeps (h : state.catalog.Sound created legacy)
    (hapart : Apart created legacy)
    (hruntimes : ∀ collectionId, state.runtimes[collectionId]? = some none → legacy collectionId) :
    (listProjectScopes principal).Ensures (keeps state.runtimes created legacy fun listed =>
      ∀ entry ∈ listed, Granted created legacy principal entry.2) state := by
  apply requestProject_keeps h
  intro projectId hproject
  apply ensures_bind
  refine (bindLegacyRuntimes_keeps h hapart hruntimes).mono (fun _ s hkept => ?_)
    (fun _ _ hkept => hkept) fun _ hkept => hkept
  obtain ⟨hsound, hsame⟩ := hkept.1
  apply ensures_getBind
  refine ensures_lift (fun listed hlisted => ?_) fun _ _ => ⟨hsound, hsame⟩
  refine ⟨⟨hsound, hsame⟩, fun entry hentry => ?_⟩
  obtain ⟨rfl, howned⟩ := hsound.memory.owned_of_listProject (mapError_ok_iff.mp hlisted) entry hentry
  exact granted_of_owned hproject howned

/-! ### Requests -/

inductive Request where
  | createScope (collectionName : String) (entropy : Option (List UInt8))
  | resolveExistingScope (collectionName : String)
  | listProjectScopes
  | removeScope (collectionName : String) (collectionId : CollectionId)

/-- Serves a request of the principal with the scopes that it returns. -/
def serve (principal : Principal) : Request → RequestProgram (List DataPlaneScope)
  | .createScope collectionName entropy => do
      let scope ← createScope principal collectionName entropy
      pure [scope]
  | .resolveExistingScope collectionName => do
      let scope ← resolveExistingScope principal collectionName
      pure [scope]
  | .listProjectScopes => do
      let listed ← listProjectScopes principal
      pure (listed.map Prod.snd)
  | .removeScope collectionName collectionId => do
      removeScope principal collectionName collectionId
      pure []

def Request.draws (state : DataPlane) (principal : Principal) : Request → Option DataPlaneScope
  | .createScope collectionName entropy => state.draws principal collectionName entropy
  | _ => none

/-- The request is not bridged to a running collection that has a project. -/
def Request.Unbridged (state : DataPlane) (principal : Principal) : Request → Prop
  | .resolveExistingScope collectionName => ∀ collectionId,
      state.Bridged principal collectionName collectionId →
        state.runtimes[collectionId]? = some none
  | _ => True

theorem keeps_bind {α β : Type} {program : RequestProgram α} {f : α → β} {answer : α → Prop}
    {answer' : β → Prop} {runtimes : Std.ExtTreeMap CollectionId (Option DataPlaneScope) compare}
    (h : program.Ensures (keeps runtimes created legacy answer) state)
    (hanswer : ∀ value, answer value → answer' (f value)) :
    (do let value ← program; pure (f value) : RequestProgram β).Ensures
      (keeps runtimes created legacy answer') state :=
  ensures_bind (h.mono (fun value _ hkept => ensures_pure ⟨hkept.1, hanswer value hkept.2⟩)
    (fun _ _ hkept => hkept) fun _ hkept => hkept)

theorem serve_keeps {request : Request} (h : state.catalog.Sound created legacy)
    (hapart : Apart created legacy)
    (hruntimes : ∀ collectionId, state.runtimes[collectionId]? = some none → legacy collectionId)
    (hfresh : ∀ scope ∈ request.draws state principal, ¬legacy scope.collectionId ∧
      ∀ other ∈ created, other.collectionId ≠ scope.collectionId)
    (hunbridged : request.Unbridged state principal) :
    (serve principal request).Ensures
      (keeps state.runtimes ((request.draws state principal).toList ++ created) legacy
        fun scopes => ∀ scope ∈ scopes,
          Granted ((request.draws state principal).toList ++ created) legacy principal scope)
      state := by
  cases request with
  | createScope collectionName entropy =>
    apply keeps_bind (createScope_keeps h hfresh)
    exact fun scope hgranted => List.forall_mem_singleton.mpr hgranted
  | resolveExistingScope collectionName =>
    apply keeps_bind (resolveExistingScope_keeps h hapart fun collectionId hbridged =>
      hruntimes collectionId (hunbridged collectionId hbridged))
    exact fun scope hgranted => List.forall_mem_singleton.mpr hgranted
  | listProjectScopes =>
    apply keeps_bind (listProjectScopes_keeps h hapart hruntimes)
    intro listed hgranted scope hscope
    obtain ⟨entry, hentry, rfl⟩ := List.mem_map.mp hscope
    exact hgranted entry hentry
  | removeScope collectionName collectionId =>
    exact keeps_bind (removeScope_keeps h) fun _ _ => nofun

end DataPlane

/-! ### Runs -/

/-- A data plane with the scopes it created and the scopes it returned so far. -/
structure Tenancy where
  server : DataPlane
  running : Bool
  created : List DataPlaneScope
  answered : List (Principal × DataPlaneScope)

namespace Tenancy

open DataPlane

inductive Event where
  | request (principal : Principal) (request : Request) (faults : List Fault)
  | startRuntime (collectionId : CollectionId) (scope : Option DataPlaneScope)
  | stopRuntime (collectionId : CollectionId)
  | restart (runtimes : Std.ExtTreeMap CollectionId (Option DataPlaneScope) compare)

/-- A server without names, whose collections are older than projects. -/
def start (runtimes : Std.ExtTreeMap CollectionId (Option DataPlaneScope) compare) : Tenancy :=
  ⟨⟨⟨.default, none⟩, runtimes⟩, true, [], []⟩

def answers (principal : Principal) :
    Ending DataPlaneRequestError (List DataPlaneScope) → List (Principal × DataPlaneScope)
  | .ok scopes => scopes.map fun scope => (principal, scope)
  | _ => []

def served (tenancy : Tenancy) (principal : Principal) (request : Request)
    (faults : List Fault) : Tenancy :=
  match (serve principal request).run tenancy.server faults with
  | (ending, world) =>
      { server := world.state
        running := match ending with | .crashed => false | _ => true
        created := (request.draws tenancy.server principal).toList ++ tenancy.created
        answered := answers principal ending ++ tenancy.answered }

def updateRuntimes (tenancy : Tenancy)
    (runtimes : Std.ExtTreeMap CollectionId (Option DataPlaneScope) compare) : Tenancy :=
  { tenancy with server := { tenancy.server with runtimes := runtimes } }

def restarted (tenancy : Tenancy)
    (runtimes : Std.ExtTreeMap CollectionId (Option DataPlaneScope) compare) : Tenancy :=
  match openFile tenancy.server.catalog.disk with
  | .ok file =>
      { tenancy with
        server := ⟨{ tenancy.server.catalog with memory := file }, runtimes⟩
        running := true }
  | .error _ => { tenancy with running := false }

def step (tenancy : Tenancy) : Event → Tenancy
  | .request principal request faults =>
      if tenancy.running then tenancy.served principal request faults else tenancy
  | .startRuntime collectionId scope =>
      tenancy.updateRuntimes (tenancy.server.runtimes.insert collectionId scope)
  | .stopRuntime collectionId => tenancy.updateRuntimes (tenancy.server.runtimes.erase collectionId)
  | .restart runtimes => tenancy.restarted runtimes

/-- New ids are random, and only a collection without a project runs without one. -/
def Lawful (legacy : CollectionId → Prop) (tenancy : Tenancy) : Event → Prop
  | .request principal request _ => ∀ scope ∈ request.draws tenancy.server principal,
      ¬legacy scope.collectionId ∧
        ∀ other ∈ tenancy.created, other.collectionId ≠ scope.collectionId
  | .startRuntime collectionId scope => scope = none → legacy collectionId
  | .stopRuntime _ => True
  | .restart runtimes => ∀ collectionId, runtimes[collectionId]? = some none → legacy collectionId

/-- As `Lawful`, and no request is bridged to a collection that has a project. -/
def Guarded (legacy : CollectionId → Prop) (tenancy : Tenancy) (event : Event) : Prop :=
  Lawful legacy tenancy event ∧ match event with
    | .request principal request _ => request.Unbridged tenancy.server principal
    | _ => True

/-- No id is bound twice, every id can be looked up and nobody was told of a
collection of another project. -/
structure Isolated (legacy : CollectionId → Prop) (tenancy : Tenancy) : Prop where
  once : ∀ project name project' name' value : String,
    (tenancy.server.catalog.memory.names project)[name]? = some value →
      (tenancy.server.catalog.memory.names project')[name']? = some value →
        project = project' ∧ name = name'
  found : ∀ collectionId, ∃ found,
    tenancy.server.catalog.memory.findScopeByCollectionId collectionId = .ok found
  granted : ∀ answer ∈ tenancy.answered, Granted tenancy.created legacy answer.1 answer.2

structure Invariant (legacy : CollectionId → Prop) (tenancy : Tenancy) : Prop where
  catalog : tenancy.server.catalog.Sound tenancy.created legacy
  apart : Apart tenancy.created legacy
  runtimes : ∀ collectionId, tenancy.server.runtimes[collectionId]? = some none →
    legacy collectionId
  granted : ∀ answer ∈ tenancy.answered, Granted tenancy.created legacy answer.1 answer.2

section Invariant

variable {legacy : CollectionId → Prop} {tenancy : Tenancy}

theorem Invariant.isolated (h : tenancy.Invariant legacy) : tenancy.Isolated legacy :=
  ⟨h.catalog.memory.once, h.catalog.memory.find_ok, h.granted⟩

theorem invariant_start {runtimes : Std.ExtTreeMap CollectionId (Option DataPlaneScope) compare}
    (hruntimes : ∀ collectionId, runtimes[collectionId]? = some none → legacy collectionId) :
    (start runtimes).Invariant legacy :=
  ⟨⟨CatalogFile.sound_default, nofun⟩, nofun, hruntimes, nofun⟩

theorem served_preserves {principal : Principal} {request : Request} {faults : List Fault}
    (h : tenancy.Invariant legacy)
    (hallowed : Guarded legacy tenancy (.request principal request faults)) :
    (tenancy.served principal request faults).Invariant legacy := by
  have hserved := serve_keeps h.catalog h.apart h.runtimes hallowed.1 hallowed.2 faults
  have hsubset := List.subset_append_right
    (request.draws tenancy.server principal).toList tenancy.created
  have hapart : Apart ((request.draws tenancy.server principal).toList ++ tenancy.created)
      legacy := by
    intro scope hscope
    rcases List.mem_append.mp hscope with hdrawn | hold
    · exact (hallowed.1 scope (Option.mem_toList.mp hdrawn)).1
    · exact h.apart scope hold
  have hgranted : ∀ answer ∈ tenancy.answered,
      Granted ((request.draws tenancy.server principal).toList ++ tenancy.created) legacy
        answer.1 answer.2 := by
    intro answer hanswer
    obtain ⟨hproject, howner⟩ := h.granted answer hanswer
    exact ⟨hproject, howner.imp_left fun hmem => hsubset hmem⟩
  unfold served
  rcases hrun : (serve principal request).run tenancy.server faults with
    ⟨scopes | error | _, world⟩ <;> rw [hrun] at hserved
  · obtain ⟨⟨hsound, hsame⟩, hscopes⟩ := hserved
    refine ⟨hsound, hapart, hsame ▸ h.runtimes, fun answer hanswer => ?_⟩
    rcases List.mem_append.mp hanswer with hnew | hold
    · obtain ⟨scope, hscope, rfl⟩ := List.mem_map.mp hnew
      exact hscopes scope hscope
    · exact hgranted answer hold
  · exact ⟨hserved.1, hapart, hserved.2 ▸ h.runtimes, hgranted⟩
  · exact ⟨hserved.1, hapart, hserved.2 ▸ h.runtimes, hgranted⟩

theorem restarted_preserves
    {runtimes : Std.ExtTreeMap CollectionId (Option DataPlaneScope) compare}
    (h : tenancy.Invariant legacy)
    (hruntimes : ∀ collectionId, runtimes[collectionId]? = some none → legacy collectionId) :
    (tenancy.restarted runtimes).Invariant legacy := by
  unfold restarted openFile
  cases hdisk : tenancy.server.catalog.disk with
  | none => exact ⟨⟨CatalogFile.sound_default, h.catalog.disk⟩, h.apart, hruntimes, h.granted⟩
  | some decoded =>
    have hsound := h.catalog.disk decoded hdisk
    simp only [hsound.version, ne_eq, not_true_eq_false, if_false]
    exact ⟨⟨hsound, h.catalog.disk⟩, h.apart, hruntimes, h.granted⟩

theorem step_preserves {event : Event} (h : tenancy.Invariant legacy)
    (hallowed : Guarded legacy tenancy event) : (tenancy.step event).Invariant legacy := by
  cases event with
  | request principal request faults =>
    simp only [step]
    split
    · exact served_preserves h hallowed
    · exact h
  | startRuntime collectionId scope =>
    refine ⟨h.catalog, h.apart, fun other hother => ?_, h.granted⟩
    simp only [step, updateRuntimes, Std.ExtTreeMap.getElem?_insert,
      Std.LawfulEqOrd.compare_eq_iff_eq] at hother
    split at hother
    · rename_i hsame
      exact hsame ▸ hallowed.1 (Option.some.inj hother)
    · exact h.runtimes other hother
  | stopRuntime collectionId =>
    refine ⟨h.catalog, h.apart, fun other hother => ?_, h.granted⟩
    simp only [step, updateRuntimes, Std.ExtTreeMap.getElem?_erase] at hother
    split at hother
    · cases hother
    · exact h.runtimes other hother
  | restart runtimes => exact restarted_preserves h hallowed.1

end Invariant

/-- In every run without a request that is bridged to a collection of a project,
names isolate the projects. -/
theorem isolated_of_guarded {legacy : CollectionId → Prop}
    {runtimes : Std.ExtTreeMap CollectionId (Option DataPlaneScope) compare} {tenancy : Tenancy}
    (hruntimes : ∀ collectionId, runtimes[collectionId]? = some none → legacy collectionId)
    (hrun : Reaches step (Guarded legacy) (start runtimes) tenancy) : tenancy.Isolated legacy :=
  (hrun.invariant (Invariant legacy) (invariant_start hruntimes)
    fun _ _ h hallowed => step_preserves h hallowed).isolated

/-! ### A request that is bridged -/

section Sample

def docs : CollectionName := ⟨"docs", validateIdentifier_docs⟩

def projectA : ProjectId := ⟨"project-a", validateIdentifier_projectA⟩

def principalA : Principal := ⟨"a", .workloadCredential, some "project-a", none⟩

def zeroId : CollectionId := ⟨"c_00000000000000000000000000000000", by decide⟩

def zeroName : CollectionName := ⟨"c_00000000000000000000000000000000", by decide⟩

def createDocs : Request := .createScope "docs" (some (List.replicate 16 0))

def resolveZero : Request := .resolveExistingScope "c_00000000000000000000000000000000"

def docsFile : CatalogFile := withBinding .default ⟨projectA, zeroId⟩ docs

def bridgedFile : CatalogFile := withBinding docsFile (.legacyDefault zeroId) zeroName

/-- The collection of project-a is running. -/
def docsRunning : Tenancy :=
  ((start ∅).step (.request principalA createDocs [])).step
    (.startRuntime zeroId (some ⟨projectA, zeroId⟩))

theorem served_of_returns {tenancy : Tenancy} {principal : Principal} {request : Request}
    {scopes : List DataPlaneScope} {after : DataPlane}
    (h : (serve principal request).Returns tenancy.server scopes after) :
    tenancy.served principal request [] = ⟨after, true,
      (request.draws tenancy.server principal).toList ++ tenancy.created,
      scopes.map (fun scope => (principal, scope)) ++ tenancy.answered⟩ := by
  unfold served
  rw [h]
  rfl

theorem createDocs_returns : (serve principalA createDocs).Returns (start ∅).server
    [⟨projectA, zeroId⟩] ⟨⟨docsFile, some docsFile⟩, ∅⟩ := by
  have hnew : docs.asStr ∉ CatalogFile.default.names projectA.asStr := by
    simp [CatalogFile.names, CatalogFile.default]
  have hname : (CollectionName.new "docs").mapError (fun error =>
      DataPlaneRequestError.invalidCollectionName error.display) = .ok docs := rfl
  have hproject : (principalProject principalA).mapError DataPlaneRequestError.resolution =
      .ok projectA := rfl
  refine returns_bind ?_ returns_pure
  apply returns_bind (returns_lift hname)
  apply returns_bind (returns_lift hproject)
  exact returns_onPart (returns_mapError (create_returns hnew rfl))

theorem server_docsRunning : docsRunning.server = ⟨⟨docsFile, some docsFile⟩,
    (∅ : Std.ExtTreeMap CollectionId (Option DataPlaneScope) compare).insert zeroId
      (some ⟨projectA, zeroId⟩)⟩ := by
  have hcreated : (start ∅).step (.request principalA createDocs []) =
      (start ∅).served principalA createDocs [] := rfl
  rw [docsRunning, hcreated, served_of_returns createDocs_returns]
  rfl

theorem resolveZero_returns : (serve .development resolveZero).Returns docsRunning.server
    [.legacyDefault zeroId] ⟨⟨bridgedFile, some bridgedFile⟩, docsRunning.server.runtimes⟩ := by
  have hnew : zeroName.asStr ∉ docsFile.names ProjectId.defaultProject.asStr := by
    have hempty : CatalogFile.default.names ProjectId.defaultProject.asStr = ∅ := by
      simp [CatalogFile.names, CatalogFile.default]
    rw [docsFile, names_withBinding_of_ne _ _ (by decide), hempty]
    exact Std.ExtTreeMap.not_mem_empty
  have hname : (CollectionName.new "c_00000000000000000000000000000000").mapError (fun error =>
      DataPlaneRequestError.invalidCollectionName error.display) = .ok zeroName := rfl
  have hproject : (principalProject .development).mapError DataPlaneRequestError.resolution =
      .ok ProjectId.defaultProject := rfl
  have hresolve : docsRunning.server.catalog.memory.resolve .defaultProject zeroName =
      .ok none := by
    rw [server_docsRunning, CatalogFile.resolve_eq, Std.ExtTreeMap.getElem?_eq_none hnew]
  have hbridge : docsRunning.server.bridge .development "c_00000000000000000000000000000000" =
      some zeroId := by
    have hid : CollectionId.new "c_00000000000000000000000000000000" = .ok zeroId := rfl
    have hdefault : Principal.development.workloadProjectId =
        some ProjectId.defaultProject.asStr := rfl
    rw [bridge, if_pos hdefault, hid, server_docsRunning]
    exact if_pos Std.ExtTreeMap.mem_insert_self
  refine returns_bind ?_ returns_pure
  apply returns_bind (returns_lift hname)
  apply returns_bind (returns_lift hproject)
  apply returns_getBind
  rw [hresolve]
  apply returns_bind returns_pure
  simp only [hbridge]
  rw [server_docsRunning]
  exact returns_onPart (returns_mapError (bindLegacyDefault_returns rfl hnew))

theorem lawful_createDocs : Lawful (fun _ => False) (start ∅) (.request principalA createDocs []) :=
  fun _ _ => ⟨id, nofun⟩

theorem isolated_sample :
    ((start ∅).step (.request principalA createDocs [])).Isolated fun _ => False :=
  isolated_of_guarded (by simp) ((Reaches.refl _).tail _ ⟨lawful_createDocs, trivial⟩)

/-- A principal of the default project asks for the stable id of the collection of
project-a, and is bound to it under that name. -/
theorem not_isolated_bridged : ∃ tenancy : Tenancy,
    Reaches step (Lawful fun _ => False) (start ∅) tenancy ∧ ¬tenancy.Isolated fun _ => False := by
  have hstart : Lawful (fun _ => False) ((start ∅).step (.request principalA createDocs []))
      (.startRuntime zeroId (some ⟨projectA, zeroId⟩)) := nofun
  have hresolve : Lawful (fun _ => False) docsRunning (.request .development resolveZero []) :=
    nofun
  refine ⟨docsRunning.step (.request .development resolveZero []),
    (((Reaches.refl _).tail _ lawful_createDocs).tail _ hstart).tail _ hresolve, fun h => ?_⟩
  have hserved : docsRunning.step (.request .development resolveZero []) =
      docsRunning.served .development resolveZero [] := rfl
  rw [hserved, served_of_returns resolveZero_returns] at h
  have hdefault : bridgedFile.Bound (.legacyDefault zeroId) zeroName := bound_withBinding _ _ _
  have hdocs : bridgedFile.Bound ⟨projectA, zeroId⟩ docs := by
    rw [CatalogFile.Bound, bridgedFile, names_withBinding_of_ne _ _ (by decide)]
    exact bound_withBinding _ _ _
  exact absurd (h.once _ _ _ _ _ hdefault hdocs).1 (by decide)

end Sample

end Tenancy

end Ketebe
