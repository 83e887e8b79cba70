import Ketebe.Incarnations
import Ketebe.NamespaceOwnership
import Ketebe.ProjectRequests

/-!
The deletion of projects beside the creation of collections. A creation binds its name
before it checks the project again, and a deletion checks the project before it looks for
names. So every name belongs to a project or is about to be taken off, unless a project is
created again while a deletion of its predecessor is in flight, a creation of a project is
rolled back over collections, or a collection is bound without a check.
-/
namespace Ketebe

open Lib.ByteCodec Lib.Durable Lib.Durable.Program

/-! ### Operations of the catalog that meet no fault -/

namespace CollectionNamespaceCatalog

variable {catalog : CollectionNamespaceCatalog}

/-- An operation that binds nothing leaves the file and what it lists. -/
def Untouched (catalog after : CollectionNamespaceCatalog) : Prop :=
  after.disk = catalog.disk ∧ ∀ project, after.memory.names project = catalog.memory.names project

theorem untouched_withProject (project : String) : Untouched catalog
    { catalog with memory := catalog.memory.withProject project } :=
  ⟨rfl, fun _ => CatalogFile.names_withProject ..⟩

theorem create_cases (projectId : ProjectId) (name : CollectionName)
    (entropy : Option (List UInt8)) :
    (∃ error after, (create projectId name entropy).run catalog [] = (.error error, ⟨after, []⟩) ∧
      Untouched catalog after) ∨
    ∃ collectionId, (create projectId name entropy).Returns catalog ⟨projectId, collectionId⟩
      ⟨withBinding catalog.memory ⟨projectId, collectionId⟩ name,
        some (withBinding catalog.memory ⟨projectId, collectionId⟩ name)⟩ := by
  have hget {state : CollectionNamespaceCatalog} :
      (get : CatalogProgram CollectionNamespaceCatalog).Returns state state state := rfl
  by_cases hname : name.asStr ∈ catalog.memory.names projectId.asStr
  · refine .inl ⟨.nameAlreadyExists, _, ?_, untouched_withProject projectId.asStr⟩
    unfold create
    rw [returns_modify.run_bind, hget.run_bind]
    simp only [CatalogFile.names_withProject, if_pos hname]
    rfl
  · cases hid : generateCollectionId entropy with
    | ok collectionId => exact .inr ⟨collectionId, create_returns hname hid⟩
    | error error =>
      refine .inl ⟨error, _, ?_, untouched_withProject projectId.asStr⟩
      unfold create
      rw [returns_modify.run_bind, hget.run_bind]
      simp only [CatalogFile.names_withProject, if_neg hname, hid]
      rfl

theorem bindLegacyDefault_cases (collectionId : CollectionId) :
    (∃ ending after, (bindLegacyDefault collectionId).run catalog [] = (ending, ⟨after, []⟩) ∧
      Untouched catalog after) ∨
    ∃ name : CollectionName, name.asStr = collectionId.asStr ∧
      name.asStr ∉ catalog.memory.names ProjectId.defaultProject.asStr ∧
      (bindLegacyDefault collectionId).Returns catalog (.legacyDefault collectionId)
        ⟨withBinding catalog.memory (.legacyDefault collectionId) name,
          some (withBinding catalog.memory (.legacyDefault collectionId) name)⟩ := by
  have hget {state : CollectionNamespaceCatalog} :
      (get : CatalogProgram CollectionNamespaceCatalog).Returns state state state := rfl
  cases hname : CatalogFile.collectionNameOf collectionId.asStr with
  | error error =>
    refine .inl ⟨.error error, catalog, ?_, rfl, fun _ => rfl⟩
    unfold bindLegacyDefault
    rw [hname]
    rfl
  | ok name =>
    by_cases hnew : name.asStr ∈ catalog.memory.names ProjectId.defaultProject.asStr
    · have hopened : Untouched catalog _ := untouched_withProject ProjectId.defaultProject.asStr
      unfold bindLegacyDefault
      rw [(returns_lift hname).run_bind, returns_modify.run_bind, hget.run_bind]
      simp only [CatalogFile.names_withProject, Std.ExtTreeMap.getElem?_eq_some_getElem hnew]
      split
      · exact .inl ⟨_, _, rfl, hopened⟩
      · exact .inl ⟨_, _, rfl, hopened⟩
    · exact .inr ⟨name, CatalogFile.asStr_of_collectionNameOf hname, hnew,
        bindLegacyDefault_returns hname hnew⟩

/-- A removal leaves the names but the one that it takes off. -/
theorem remove_cases (catalog : CollectionNamespaceCatalog) (projectId : ProjectId)
    (name : CollectionName) (expected : CollectionId) :
    ∃ removed after, (remove projectId name expected).run catalog [] = (.ok removed, ⟨after, []⟩) ∧
      (after = catalog ∨ after.disk = some after.memory) ∧
      ∀ project other value, (after.memory.names project)[other]? = some value →
        (catalog.memory.names project)[other]? = some value ∧
          ¬(project = projectId.asStr ∧ other = name.asStr ∧ value = expected.asStr) := by
  have hget {state : CollectionNamespaceCatalog} :
      (get : CatalogProgram CollectionNamespaceCatalog).Returns state state state := rfl
  have hnames : catalog.memory.names projectId.asStr =
      (catalog.memory.projects[projectId.asStr]?).getD ∅ :=
    Std.ExtTreeMap.getD_eq_getD_getElem?
  unfold remove
  rw [hget.run_bind]
  cases hproject : catalog.memory.projects[projectId.asStr]? with
  | none =>
    refine ⟨_, _, rfl, .inl rfl, fun project other value hvalue => ⟨hvalue, ?_⟩⟩
    rintro ⟨rfl, -, -⟩
    rw [hnames, hproject] at hvalue
    cases Std.ExtTreeMap.getElem?_empty.symm.trans hvalue
  | some collections =>
    rw [hproject] at hnames
    have hnames : catalog.memory.names projectId.asStr = collections := hnames
    dsimp only
    split
    · rename_i hother
      refine ⟨_, _, rfl, .inl rfl, fun project other value hvalue => ⟨hvalue, ?_⟩⟩
      rintro ⟨rfl, rfl, rfl⟩
      exact hother (hnames ▸ hvalue)
    · refine ⟨true, _, rfl, .inr rfl, fun project other value hvalue => ?_⟩
      have hvalue : ((if (collections.erase name.asStr).isEmpty then
          { catalog.memory with projects := catalog.memory.projects.erase projectId.asStr }
        else catalog.memory.setNames projectId.asStr
          (collections.erase name.asStr) : CatalogFile).names project)[other]? = some value := hvalue
      by_cases hproject : projectId.asStr = project
      · subst hproject
        have hremaining : (collections.erase name.asStr)[other]? = some value := by
          split at hvalue
          · rw [names_erase, if_pos rfl] at hvalue
            cases Std.ExtTreeMap.getElem?_empty.symm.trans hvalue
          · rwa [CatalogFile.names_setNames, if_pos rfl] at hvalue
        rw [Std.ExtTreeMap.getElem?_erase] at hremaining
        split at hremaining
        · cases hremaining
        · rename_i hne
          exact ⟨hnames ▸ hremaining, fun hsame => hne (compare_eq_iff_eq.mpr hsame.2.1.symm)⟩
      · refine ⟨?_, fun hsame => hproject hsame.1.symm⟩
        split at hvalue
        · rwa [names_erase, if_neg hproject] at hvalue
        · rwa [CatalogFile.names_setNames, if_neg hproject] at hvalue

end CollectionNamespaceCatalog

namespace ControlPlane

open Lib.Runs Lib.WholeFiles Lib.WholeFiles.Task

/-! ### Sections that change files -/

/-- A file beside the store and the catalog of names. -/
def Beside (file : File) : Prop := file ≠ .store ∧ file ≠ .collections

theorem beside_policies {file : PolicyFile} {change : PolicyChange} :
    (persistPolicies file change).WritesOnly Beside :=
  ⟨⟨nofun, nofun⟩, fun succeeded => by cases succeeded <;> trivial⟩

theorem beside_members {service : ProjectMembershipService} {change : MembershipChange ProjectRole} :
    (ProjectMembershipService.persist service change).WritesOnly Beside :=
  ⟨⟨nofun, nofun⟩, fun succeeded => by cases succeeded <;> trivial⟩

theorem beside_insertClaim {projectId collectionId : String} :
    (insertClaim projectId collectionId).WritesOnly Beside := by
  refine readOnly_openPolicies.writesOnly.bind fun file => ?_
  split
  · split <;> trivial
  · exact beside_policies.bind fun _ => trivial

theorem beside_release {principal : Principal} {collectionId : String} {claim : ClaimOutcome} :
    (releaseCollectionClaimForPrincipal principal collectionId claim).WritesOnly Beside := by
  unfold releaseCollectionClaimForPrincipal
  split
  · trivial
  · refine (readOnly_lift _).writesOnly.bind fun projectId => ?_
    exact readOnly_openPolicies.writesOnly.bind fun file => beside_policies

theorem beside_removePolicies {principal : Principal} {collectionId : String} :
    (removePolicies principal collectionId).WritesOnly Beside := by
  refine (readOnly_lift _).writesOnly.bind fun projectId => ?_
  exact readOnly_openPolicies.writesOnly.bind fun file => beside_policies

theorem beside_bootstrapOwner {service : ProjectMembershipService} {id : ProjectId}
    {subject : String} :
    (ProjectMembershipService.bootstrapOwner service id subject).WritesOnly Beside := by
  unfold ProjectMembershipService.bootstrapOwner
  split
  · trivial
  · exact (readOnly_lift _).writesOnly.bind fun membership => beside_members

theorem beside_purgeMembers {id : ProjectId} : (purgeMembers id).WritesOnly Beside := by
  refine readOnly_openProjectMemberships.writesOnly.bind fun memberships => ?_
  refine WritesOnly.mapError ?_
  unfold ProjectMembershipService.purgeProject MembershipService.purge
  split
  · exact beside_members
  · trivial

section Store

variable {files : Files}

theorem finish_changeStore
    (plan : ControlPlaneState → Except ControlPlaneStoreError ControlPlaneChange) :
    (changeStore plan).finish applyChange files = match plan (files .store) with
      | .ok change => (Function.update files .store ((files .store).apply change), .ok ())
      | .error error => (files, .error error) := by
  show ((commit (files .store) (plan (files .store)) >>= fun _ => pure ()).finish applyChange
    files) = _
  cases plan (files .store) <;> rfl

/-- A stored update of the project that was found; none that is being deleted becomes
another. -/
def Updated (files : Files) (id : ProjectId) (after : Files) : Prop :=
  after = files ∨ ∃ current updated, (files .store).project id = some current ∧
    updated.id = current.id ∧ (current.lifecycle = .deleting → updated.lifecycle = .deleting) ∧
      after = Function.update files .store ((files .store).withProject updated)

theorem finish_updateProject {principal : Principal} {id : ProjectId} {input : UpdateProjectInput}
    {now : ℕ} :
    Updated files id ((updateProject principal id input now).finish applyChange files).1 := by
  have hends : Ends applyChange (fun _ _ => True)
      ⟨fun _ _ => Updated files id, fun _ _ => Updated files id⟩
      (updateProject principal id input now) 0 files := by
    have hsame : Updated files id files := .inl rfl
    apply ends_openStore
    refine ends_found (fun current hcurrent => ?_) fun _ => hsame
    refine ends_read readOnly_authorizeProjectManagement (fun _ => ?_) fun _ => hsame
    refine ends_lift_bind (fun _ hlifecycle => ?_) fun _ => hsame
    refine ends_checkInput (fun timestamps _ => ?_) fun _ => hsame
    refine ends_checkInput (fun updated hupdated => ?_) fun _ => hsame
    refine ends_commit trivial (fun change hplan => ?_) fun _ => hsame
    obtain ⟨rfl, -⟩ := ControlPlaneState.updateProject_ok hplan
    obtain ⟨hid, -, hnext⟩ := Project.new_ok hupdated
    refine .inr ⟨current, updated, hcurrent, hid, fun hdeleting => ?_, rfl⟩
    rw [hnext]
    by_contra hother
    unfold validateLifecycleTransition at hlifecycle
    rw [if_pos ⟨hdeleting, hother⟩] at hlifecycle
    cases hlifecycle
  exact finish_of_ends hends

theorem active_of_authorizeProject {principal : Principal} {action : AuthorizationAction}
    {id : ProjectId} {value : Unit} (h : ask files (authorizeProject principal action id) = .ok value) :
    ∃ project, (files .store).project id = some project ∧ project.lifecycle = .active := by
  rw [ask, authorizeProject, answer_openStore] at h
  cases hproject : (files .store).project id with
  | none =>
    rw [hproject] at h
    cases h
  | some project =>
    refine ⟨project, rfl, ?_⟩
    by_contra hinactive
    rw [hproject] at h
    dsimp only at h
    rw [if_pos hinactive] at h
    cases h

/-- A principal that may create collections acts for an active project. -/
theorem active_of_authorizePrincipalProject {principal : Principal} {action : AuthorizationAction}
    {value : String} {id : ProjectId}
    (h : ask files (authorizePrincipalProject principal action) = .ok value)
    (hproject : principalProject principal = .ok id) :
    ∃ project, (files .store).project id = some project ∧ project.lifecycle = .active := by
  have hpinned : principal.workloadProjectId = some id.asStr := by
    unfold principalProject at hproject
    split at hproject
    · cases hproject
    · rename_i project hproject'
      rw [hproject', ProjectId.asStr_of_new (mapError_ok_iff.mp hproject)]
  have hanswer : ask files (do
      authorizeProjectNamed principal action id.asStr
      pure id.asStr : ApiTask AuthorizationError String) = .ok value := by
    unfold authorizePrincipalProject pinnedProject at h
    rw [hpinned] at h
    exact h
  have hnamed : ask files (authorizeProjectNamed principal action id.asStr >>= fun _ =>
      (pure id.asStr : ApiTask AuthorizationError String)) = .ok value := hanswer
  unfold authorizeProjectNamed at hnamed
  rw [ProjectId.new_asStr] at hnamed
  have hread : (authorizeProject principal action id).ReadOnly := readOnly_authorizeProject
  have hproject : ask files (authorizeProject principal action id >>= fun _ =>
      (pure id.asStr : ApiTask AuthorizationError String)) = .ok value := hnamed
  rw [ask, hread.answer_bind] at hproject
  obtain ⟨result, hresult, -⟩ := except_bind_ok.mp hproject
  exact active_of_authorizeProject hresult

/-- A project that lists nothing has no names. -/
theorem getElem?_names_of_listProject {catalog : CatalogFile} {id : ProjectId}
    (h : catalog.listProject id = .ok []) (name : String) :
    (catalog.names id.asStr)[name]? = none := by
  have hnone : (catalog.names id.asStr).toList = [] := by
    cases hnames : (catalog.names id.asStr).toList with
    | nil => rfl
    | cons binding rest =>
      rw [CatalogFile.listProject, hnames, List.mapM_cons] at h
      obtain ⟨head, -, h⟩ := except_bind_ok.mp h
      obtain ⟨tail, -, h⟩ := except_bind_ok.mp h
      cases h
  cases hvalue : (catalog.names id.asStr)[name]? with
  | none => rfl
  | some value =>
    have hmem := Std.ExtTreeMap.mem_toList_iff_getElem?_eq_some.mpr hvalue
    rw [hnone] at hmem
    cases hmem

/-- A deletion goes on when the catalog lists nothing. -/
theorem names_of_ensureNoCollections {id : ProjectId} {value : Unit}
    (h : ask files (ensureNoCollections id) = .ok value) (name : String) :
    (((files .collections).getD .default).names id.asStr)[name]? = none := by
  have hread : Task.answer applyChange files (do
      let catalog ← lift ((CollectionNamespaceCatalog.openFile (files .collections)).mapError
        ControlPlaneApiError.collectionCatalog)
      let listed ← lift ((catalog.listProject id).mapError .collectionCatalog)
      if listed.isEmpty then pure () else throw .projectHasCollections) = .ok value := h
  cases hopen : CollectionNamespaceCatalog.openFile (files .collections) with
  | error error =>
    rw [hopen] at hread
    cases hread
  | ok catalog =>
    rw [hopen] at hread
    have hcatalog : (files .collections).getD .default = catalog := by
      unfold CollectionNamespaceCatalog.openFile at hopen
      split at hopen
      · rename_i hdisk
        rw [hdisk]
        exact Except.ok.inj hopen
      · rename_i decoded hdisk
        split at hopen
        · cases hopen
        · rw [hdisk]
          exact Except.ok.inj hopen
    rw [hcatalog]
    apply getElem?_names_of_listProject
    have hread : Task.answer applyChange files (do
        let listed ← lift ((catalog.listProject id).mapError ControlPlaneApiError.collectionCatalog)
        if listed.isEmpty then pure () else throw .projectHasCollections) = .ok value := hread
    cases hlist : catalog.listProject id with
    | error error =>
      rw [hlist] at hread
      cases hread
    | ok listed =>
      cases listed with
      | nil => rfl
      | cons entry rest =>
        rw [hlist] at hread
        cases hread

end Store

/-! ### Requests in flight -/

/-- The request takes the name off again unless the project is active by then. -/
def RequestPhase.Withdraws (phase : RequestPhase) (project name value : String) : Prop :=
  match phase with
  | .authorizingClaim principal collectionName collectionId
  | .unbindingName principal collectionName collectionId =>
      ∃ projectId visible, principalProject principal = .ok projectId ∧
        CollectionName.new collectionName = .ok visible ∧ projectId.asStr = project ∧
          visible.asStr = name ∧ collectionId.asStr = value
  | _ => False

/-- The request has found the project in deletion, and removes it unless it has names. -/
def RequestPhase.Deletes (phase : RequestPhase) (id : ProjectId) : Prop :=
  match phase with
  | .authorizingDeletion _ target project => target = id ∧ project.lifecycle = .deleting
  | .listingCollections target | .removingProject target => target = id
  | _ => False

/-- The request has found no names in the project. -/
def RequestPhase.Removes (phase : RequestPhase) (id : ProjectId) : Prop :=
  match phase with
  | .removingProject target => target = id
  | _ => False

instance (phase : RequestPhase) (id : ProjectId) : Decidable (phase.Deletes id) := by
  unfold RequestPhase.Deletes
  cases phase <;> infer_instance

instance (phase : RequestPhase) (id : ProjectId) : Decidable (phase.Removes id) := by
  unfold RequestPhase.Removes
  cases phase <;> infer_instance

namespace ProjectServer

variable {server after : ProjectServer} {phase : RequestPhase} {next : Option RequestPhase}
  {index : ℕ}

/-- The name of the project stands for a collection. -/
def Listed (server : ProjectServer) (project name value : String) : Prop :=
  (server.catalog.names project)[name]? = some value

def Withdrawn (server : ProjectServer) (project name value : String) : Prop :=
  ∃ phase ∈ server.requests, phase.Withdraws project name value

/-- What holds between the steps. -/
structure Sound (server : ProjectServer) : Prop where
  written : ∀ project, ((server.files .collections).getD .default).names project =
    server.catalog.names project
  keyed : ∀ (key : String) (project : Project), (server.files .store).projects[key]? = some project →
    project.id.asStr = key
  owned : ∀ project name value, server.Listed project name value →
    project ∈ (server.files .store).projects ∨ server.Withdrawn project name value
  deleting : ∀ phase ∈ server.requests, ∀ id, phase.Deletes id → ∀ project,
    (server.files .store).project id = some project → project.lifecycle = .deleting
  emptied : ∀ id, .removingProject id ∈ server.requests → ∀ name value,
    server.Listed id.asStr name value → server.Withdrawn id.asStr name value

/-- What a phase must see to, so that the server stays sound. -/
structure Keeps (server : ProjectServer) (phase : RequestPhase)
    (outcome : ProjectServer × Option RequestPhase) : Prop where
  requests : outcome.1.requests = server.requests
  written : ∀ project, ((outcome.1.files .collections).getD .default).names project =
    outcome.1.catalog.names project
  keyed : ∀ (key : String) (project : Project),
    (outcome.1.files .store).projects[key]? = some project → project.id.asStr = key
  listed : ∀ project name value, outcome.1.Listed project name value →
    server.Listed project name value ∧ ¬phase.Withdraws project name value ∨
      (∃ next ∈ outcome.2, next.Withdraws project name value) ∨
      project ∈ (outcome.1.files .store).projects ∧ ∀ id : ProjectId, id.asStr = project →
        .removingProject id ∉ server.requests ∧ .removingProject id ∉ outcome.2
  projects : ∀ project ∈ (server.files .store).projects,
    project ∈ (outcome.1.files .store).projects ∨
      ∀ name value, server.Listed project name value → server.Withdrawn project name value
  stored : ∀ id project, (outcome.1.files .store).project id = some project →
    (server.files .store).project id = some project ∨ project.lifecycle = .deleting ∨
      ∀ phase ∈ server.requests, ¬phase.Deletes id
  deletes : ∀ next ∈ outcome.2, ∀ id, next.Deletes id → ∀ project,
    (outcome.1.files .store).project id = some project → project.lifecycle = .deleting
  empties : ∀ id, .removingProject id ∈ outcome.2 → ∀ name value,
    ¬outcome.1.Listed id.asStr name value

theorem mem_proceed {outcome : ProjectServer × Option RequestPhase} {other : RequestPhase}
    (h : other ∈ (proceed index outcome).requests) :
    other ∈ outcome.2 ∨ other ∈ outcome.1.requests := by
  obtain ⟨after, next⟩ := outcome
  cases next with
  | none => exact .inr (List.mem_of_mem_eraseIdx h)
  | some next =>
    rcases List.mem_or_eq_of_mem_set h with hmem | rfl
    · exact .inr hmem
    · exact .inl rfl

theorem mem_proceed_next {outcome : ProjectServer × Option RequestPhase} {next : RequestPhase}
    (hindex : index < outcome.1.requests.length) (h : next ∈ outcome.2) :
    next ∈ (proceed index outcome).requests := by
  obtain ⟨after, _⟩ := outcome
  cases h
  exact List.mem_set hindex next

/-- The other requests stay in flight. -/
theorem mem_proceed_other {outcome : ProjectServer × Option RequestPhase} {other : RequestPhase}
    (hphase : outcome.1.requests[index]? = some phase) (hne : other ≠ phase)
    (h : other ∈ outcome.1.requests) : other ∈ (proceed index outcome).requests := by
  obtain ⟨after, next⟩ := outcome
  obtain ⟨position, hposition⟩ := List.mem_iff_getElem?.mp h
  have hother : position ≠ index := by
    rintro rfl
    exact hne (Option.some.inj (hposition.symm.trans hphase))
  cases next with
  | none => exact List.mem_eraseIdx_iff_getElem?.mpr ⟨position, hother, hposition⟩
  | some next =>
    refine List.mem_iff_getElem?.mpr ⟨position, ?_⟩
    rw [← hposition]
    exact List.getElem?_set_ne hother.symm

theorem Sound.of_keeps {outcome : ProjectServer × Option RequestPhase} (h : server.Sound)
    (hphase : server.requests[index]? = some phase) (hkeeps : Keeps server phase outcome) :
    (proceed index outcome).Sound := by
  have hcatalog : (proceed index outcome).catalog = outcome.1.catalog := by
    obtain ⟨after, _ | next⟩ := outcome <;> rfl
  have hfiles : (proceed index outcome).files = outcome.1.files := by
    obtain ⟨after, _ | next⟩ := outcome <;> rfl
  have hat : outcome.1.requests[index]? = some phase := hkeeps.requests ▸ hphase
  have hindex : index < outcome.1.requests.length := (List.getElem?_eq_some_iff.mp hat).1
  have hmem {other : RequestPhase} (hother : other ∈ (proceed index outcome).requests) :
      other ∈ outcome.2 ∨ other ∈ server.requests := hkeeps.requests ▸ mem_proceed hother
  have hwithdrawn {project name value : String} (hnot : ¬phase.Withdraws project name value)
      (hbefore : server.Withdrawn project name value) :
      (proceed index outcome).Withdrawn project name value := by
    obtain ⟨other, hother, hwithdraws⟩ := hbefore
    refine ⟨other, mem_proceed_other hat ?_ (hkeeps.requests ▸ hother), hwithdraws⟩
    rintro rfl
    exact hnot hwithdraws
  have hlisted {project name value : String}
      (hafter : (proceed index outcome).Listed project name value) :
      outcome.1.Listed project name value := by
    rwa [Listed, hcatalog] at hafter
  constructor
  · rw [hfiles, hcatalog]
    exact hkeeps.written
  · rw [hfiles]
    exact hkeeps.keyed
  · intro project name value hafter
    rw [hfiles]
    rcases hkeeps.listed project name value (hlisted hafter) with
      ⟨hbefore, hnot⟩ | ⟨next, hnext, hwithdraws⟩ | ⟨hexists, -⟩
    · rcases h.owned project name value hbefore with hexists | hpending
      · rcases hkeeps.projects project hexists with hstill | hall
        · exact .inl hstill
        · exact .inr (hwithdrawn hnot (hall name value hbefore))
      · exact .inr (hwithdrawn hnot hpending)
    · exact .inr ⟨next, mem_proceed_next hindex hnext, hwithdraws⟩
    · exact .inl hexists
  · intro other hother id hdeletes project hproject
    rw [hfiles] at hproject
    rcases hmem hother with hnext | hbefore
    · exact hkeeps.deletes other hnext id hdeletes project hproject
    · rcases hkeeps.stored id project hproject with hsame | hdeleting | hnone
      · exact h.deleting other hbefore id hdeletes project hsame
      · exact hdeleting
      · exact absurd hdeletes (hnone other hbefore)
  · intro id hother name value hafter
    rcases hmem hother with hnext | hbefore
    · exact absurd (hlisted hafter) (hkeeps.empties id hnext name value)
    · rcases hkeeps.listed id.asStr name value (hlisted hafter) with
        ⟨hlisted, hnot⟩ | ⟨next, hnext, hwithdraws⟩ | ⟨-, hnone⟩
      · exact hwithdrawn hnot (h.emptied id hbefore name value hlisted)
      · exact ⟨next, mem_proceed_next hindex hnext, hwithdraws⟩
      · exact absurd hbefore (hnone id rfl).1

/-- The step changes neither the store nor what the catalog lists. -/
structure Alike (server after : ProjectServer) : Prop where
  requests : after.requests = server.requests
  store : after.files .store = server.files .store
  disk : after.files .collections = server.files .collections
  names : ∀ project, after.catalog.names project = server.catalog.names project

theorem alike_refl : Alike server server := ⟨rfl, rfl, rfl, fun _ => rfl⟩

/-- No part in the deletion of a project. -/
def Harmless (next : Option RequestPhase) : Prop := ∀ phase ∈ next, ∀ id, ¬phase.Deletes id

theorem harmless_none : Harmless none := by
  intro phase hphase
  cases hphase

theorem harmless_some (h : ∀ id, ¬phase.Deletes id) : Harmless (some phase) := by
  intro other hother
  cases hother
  exact h

/-- A phase that changes neither keeps the server sound, if it does not give up a name
and does not go on to delete a project. -/
theorem Sound.keeps_of_alike (h : server.Sound) (halike : Alike server after)
    (hwithdraws : ∀ project name value, phase.Withdraws project name value →
      ∃ phase ∈ next, phase.Withdraws project name value)
    (hnext : Harmless next) : Keeps server phase (after, next) := by
  have hlisted {project name value : String} (hafter : after.Listed project name value) :
      server.Listed project name value := by
    rwa [Listed, halike.names] at hafter
  refine ⟨halike.requests, fun project => ?_, ?_, fun project name value hafter => ?_,
    fun project hproject => .inl ?_, fun id project hproject => .inl ?_,
    fun phase hphase id hdeletes => absurd hdeletes (hnext phase hphase id),
    fun id hphase => absurd rfl (hnext _ hphase id)⟩
  · show ((after.files .collections).getD .default).names project = after.catalog.names project
    rw [halike.disk, halike.names, h.written]
  · rw [halike.store]
    exact h.keyed
  · by_cases hphase : phase.Withdraws project name value
    · exact .inr (.inl (hwithdraws project name value hphase))
    · exact .inl ⟨hlisted hafter, hphase⟩
  · rwa [halike.store]
  · rwa [halike.store] at hproject

theorem Sound.keeps_quiet (h : server.Sound) (halike : Alike server after)
    (hphase : ∀ project name value, ¬phase.Withdraws project name value)
    (hnext : Harmless next) : Keeps server phase (after, next) :=
  h.keeps_of_alike halike (fun _ _ _ hwithdraws => absurd hwithdraws (hphase _ _ _)) hnext

/-! ### Operations of the catalog -/

section Catalog

theorem onCatalog_inCatalog {α : Type} {program : CollectionNamespaceCatalog.CatalogProgram α}
    (liftError : CollectionNamespaceError → DataPlaneRequestError)
    {ending : Ending CollectionNamespaceError α} {world : Lib.Durable.World CollectionNamespaceCatalog}
    (h : program.run ⟨server.catalog, server.files .collections⟩ [] = (ending, world)) :
    server.onCatalog (DataPlane.inCatalog liftError program) =
      (server.withCatalog world.state, match ending with | .ok value => some value | _ => none) := by
  unfold Program.run at h
  unfold onCatalog DataPlane.inCatalog Program.run Program.onPart Program.mapError Program.handle
  simp only [dataPlane, h]
  rcases ending with value | error | _ <;> rfl

theorem alike_withCatalog {catalog : CollectionNamespaceCatalog}
    (h : CollectionNamespaceCatalog.Untouched ⟨server.catalog, server.files .collections⟩ catalog) :
    Alike server (server.withCatalog catalog) :=
  ⟨rfl, rfl, h.1, h.2⟩

/-- The server after a name was bound. -/
def bound (server : ProjectServer) (scope : DataPlaneScope) (name : CollectionName) :
    ProjectServer :=
  server.withCatalog ⟨CollectionNamespaceCatalog.withBinding server.catalog scope name,
    some (CollectionNamespaceCatalog.withBinding server.catalog scope name)⟩

theorem listed_bound {scope : DataPlaneScope} {visible : CollectionName} {project name value : String}
    (h : (server.bound scope visible).Listed project name value) :
    server.Listed project name value ∨ scope.projectId.asStr = project ∧ visible.asStr = name ∧
      scope.collectionId.asStr = value := by
  unfold Listed at h
  rw [show (server.bound scope visible).catalog =
    CollectionNamespaceCatalog.withBinding server.catalog scope visible from rfl] at h
  by_cases hproject : scope.projectId.asStr = project
  · subst hproject
    rw [CollectionNamespaceCatalog.withBinding, CatalogFile.names_setNames, if_pos rfl,
      Std.ExtTreeMap.getElem?_insert] at h
    split at h
    · rename_i hname
      exact .inr ⟨rfl, compare_eq_iff_eq.mp hname, Option.some.inj h⟩
    · exact .inl h
  · rw [CollectionNamespaceCatalog.names_withBinding_of_ne _ _ hproject] at h
    exact .inl h

theorem onCatalog_createScope (principal : Principal) (name : String)
    (entropy : Option (List UInt8)) :
    (∃ after, server.onCatalog (DataPlane.createScope principal name entropy) = (after, none) ∧
      Alike server after) ∨
    ∃ projectId visible collectionId, principalProject principal = .ok projectId ∧
      CollectionName.new name = .ok visible ∧
      server.onCatalog (DataPlane.createScope principal name entropy) =
        (server.bound ⟨projectId, collectionId⟩ visible, some ⟨projectId, collectionId⟩) := by
  have hsame : Alike server (server.withCatalog server.dataPlane.catalog) :=
    alike_withCatalog ⟨rfl, fun _ => rfl⟩
  cases hname : CollectionName.new name with
  | error error =>
    refine .inl ⟨_, ?_, hsame⟩
    unfold DataPlane.createScope DataPlane.requestedName
    rw [hname]
    rfl
  | ok visible =>
    cases hproject : principalProject principal with
    | error error =>
      refine .inl ⟨_, ?_, hsame⟩
      unfold DataPlane.createScope DataPlane.requestedName DataPlane.requestProject
      rw [hname, hproject]
      rfl
    | ok projectId =>
      have hcreate : server.onCatalog (DataPlane.createScope principal name entropy) =
          server.onCatalog (DataPlane.inCatalog (fun error => .resolution (.catalog error))
            (CollectionNamespaceCatalog.create projectId visible entropy)) := by
        unfold DataPlane.createScope DataPlane.requestedName DataPlane.requestProject
        rw [hname, hproject]
        rfl
      rw [hcreate]
      rcases CollectionNamespaceCatalog.create_cases projectId visible entropy with
        ⟨error, after, hrun, hsame⟩ | ⟨collectionId, hreturns⟩
      · exact .inl ⟨_, onCatalog_inCatalog _ hrun, alike_withCatalog hsame⟩
      · exact .inr ⟨projectId, visible, collectionId, rfl, rfl, onCatalog_inCatalog _ hreturns⟩

/-- A removal leaves the store and the names but its own. -/
theorem onCatalog_removeScope (h : server.Sound) (principal : Principal) (name : String)
    (collectionId : CollectionId) :
    ∃ after result, server.onCatalog (DataPlane.removeScope principal name collectionId) =
        (after, result) ∧
      after.requests = server.requests ∧ after.files .store = server.files .store ∧
      (∀ project, ((after.files .collections).getD .default).names project =
        after.catalog.names project) ∧
      ∀ project other value, after.Listed project other value →
        server.Listed project other value ∧
          ¬(RequestPhase.unbindingName principal name collectionId).Withdraws project other value := by
  cases hproject : principalProject principal with
  | error error =>
    have hrun : server.onCatalog (DataPlane.removeScope principal name collectionId) =
        (server.withCatalog server.dataPlane.catalog, none) := by
      unfold DataPlane.removeScope DataPlane.requestProject
      rw [hproject]
      rfl
    refine ⟨_, _, hrun, rfl, rfl, h.written, fun project other value hlisted => ⟨hlisted, ?_⟩⟩
    rintro ⟨projectId, visible, hother, -⟩
    cases hproject.symm.trans hother
  | ok projectId =>
    cases hname : CollectionName.new name with
    | error error =>
      have hrun : server.onCatalog (DataPlane.removeScope principal name collectionId) =
          (server.withCatalog server.dataPlane.catalog, none) := by
        unfold DataPlane.removeScope DataPlane.requestProject DataPlane.requestedName
        rw [hproject, hname]
        rfl
      refine ⟨_, _, hrun, rfl, rfl, h.written, fun project other value hlisted => ⟨hlisted, ?_⟩⟩
      rintro ⟨_, visible, -, hother, -⟩
      cases hname.symm.trans hother
    | ok visible =>
      obtain ⟨removed, after, hremove, hdisk, hnames⟩ := CollectionNamespaceCatalog.remove_cases
        ⟨server.catalog, server.files .collections⟩ projectId visible collectionId
      have hreturns : (DataPlane.removeScope principal name collectionId).Returns server.dataPlane ()
          ⟨after, server.runtimes⟩ := by
        apply returns_bind (returns_lift (by rw [hproject]; rfl))
        apply returns_bind (returns_lift (by rw [hname]; rfl))
        exact returns_bind (returns_onPart (returns_mapError hremove)) returns_pure
      have hrun : server.onCatalog (DataPlane.removeScope principal name collectionId) =
          (server.withCatalog after, some ()) := by
        unfold onCatalog
        rw [hreturns]
      refine ⟨_, _, hrun, rfl, rfl, fun project => ?_, fun project other value hlisted => ?_⟩
      · rcases hdisk with rfl | hdisk
        · exact h.written project
        · show (after.disk.getD .default).names project = after.memory.names project
          rw [hdisk]
          rfl
      · obtain ⟨hbefore, hnot⟩ := hnames project other value hlisted
        refine ⟨hbefore, ?_⟩
        rintro ⟨sameProject, sameName, hsameProject, hsameName, rfl, rfl, rfl⟩
        cases hproject.symm.trans hsameProject
        cases hname.symm.trans hsameName
        exact hnot ⟨rfl, rfl, rfl⟩

theorem onCatalog_bindLegacy (collectionId : CollectionId) :
    (∃ after result, server.onCatalog (DataPlane.inCatalog .namespaceCatalog
        (CollectionNamespaceCatalog.bindLegacyDefault collectionId)) = (after, result) ∧
      Alike server after) ∨
    ∃ visible : CollectionName, visible.asStr = collectionId.asStr ∧
      visible.asStr ∉ server.catalog.names ProjectId.defaultProject.asStr ∧
      server.onCatalog (DataPlane.inCatalog .namespaceCatalog
        (CollectionNamespaceCatalog.bindLegacyDefault collectionId)) =
          (server.bound (.legacyDefault collectionId) visible,
            some (.legacyDefault collectionId)) := by
  rcases CollectionNamespaceCatalog.bindLegacyDefault_cases collectionId with
    ⟨ending, after, hrun, hsame⟩ | ⟨visible, hvisible, hnew, hreturns⟩
  · exact .inl ⟨_, _, onCatalog_inCatalog _ hrun, alike_withCatalog hsame⟩
  · exact .inr ⟨visible, hvisible, hnew, onCatalog_inCatalog _ hreturns⟩

end Catalog

/-! ### The phases -/

/-- The step does not end in one of the three ways that leave a project's names behind: a
project comes back while a request still deletes its predecessor, the roll-back of a
creation removes a project that has names, or a running collection is bound in the default
project after a deletion has found that empty. -/
def Spares (server : ProjectServer) : RequestPhase → Prop
  | .insertingProject _ project => project.id.asStr ∈ (server.files .store).projects ∨
      ∀ phase ∈ server.requests, ¬phase.Deletes project.id
  | .rollingBack id => id.asStr ∉ (server.files .store).projects ∨
      (server.catalog.names id.asStr).isEmpty
  | .bindingLegacy _ _ collectionId =>
      collectionId.asStr ∈ server.catalog.names ProjectId.defaultProject.asStr ∨
        ProjectId.defaultProject.asStr ∈ (server.files .store).projects ∧
          ∀ phase ∈ server.requests, ¬phase.Removes .defaultProject
  | _ => True

def Undisturbed (server : ProjectServer) : ProjectEvent → Prop
  | .receive _ => True
  | .advance index _ => ∀ phase ∈ server.requests[index]?, server.Spares phase

section Phases

variable {ε α : Type} {task : ApiTask ε α} {answered : α → Option RequestPhase}
  {refused : Option RequestPhase}

theorem check_ok {value : α} (h : ask server.files task = .ok value) :
    server.check task answered refused = (server, answered value) := by
  unfold check
  rw [h]

theorem check_error {error : ε} (h : ask server.files task = .error error) :
    server.check task answered refused = (server, refused) := by
  unfold check
  rw [h]

/-! The phases that look something up themselves. -/

theorem advance_bindingName (succeeds : Bool) (principal : Principal) (name : String)
    (entropy : Option (List UInt8)) :
    server.advance succeeds (.bindingName principal name entropy) =
      match server.onCatalog (DataPlane.createScope principal name entropy) with
      | (after, some scope) => (after, some (.authorizingClaim principal name scope.collectionId))
      | (after, none) => (after, none) := rfl

theorem advance_bindingLegacy (succeeds : Bool) (principal : Principal) (name : String)
    (collectionId : CollectionId) :
    server.advance succeeds (.bindingLegacy principal name collectionId) =
      match server.onCatalog (DataPlane.inCatalog .namespaceCatalog
          (CollectionNamespaceCatalog.bindLegacyDefault collectionId)) with
      | (after, some scope) => (after, some (.deletingStored principal name scope.collectionId))
      | (after, none) => (after, none) := rfl

theorem advance_resolving (succeeds : Bool) (principal : Principal) (name : String) :
    server.advance succeeds (.resolving principal name) =
      match lookUp server.dataPlane principal name with
      | .ok (.inl scope) => (server, some (.deletingStored principal name scope.collectionId))
      | .ok (.inr collectionId) => (server, some (.bindingLegacy principal name collectionId))
      | .error _ => (server, none) := rfl

theorem advance_findingProject (succeeds : Bool) (principal : Principal) (id : ProjectId) :
    server.advance succeeds (.findingProject principal id) =
      match (server.files .store).project id with
      | some project => (server, some (.authorizingDeletion principal id project))
      | none => (server, none) := rfl

theorem advance_bootstrappingOwner (succeeds : Bool) (principal : Principal) (id : ProjectId) :
    server.advance succeeds (.bootstrappingOwner principal id) =
      match ask server.files openProjectMemberships with
      | .ok memberships => server.change
          (ProjectMembershipService.bootstrapOwner memberships id principal.subject)
          (fun _ => none) (some (.rollingBack id))
      | .error _ => (server, none) := rfl

theorem Sound.keeps_check (h : server.Sound)
    (hphase : ∀ project name value, ¬phase.Withdraws project name value)
    (hanswered : ∀ value, Harmless (answered value)) (hrefused : Harmless refused) :
    Keeps server phase (server.check task answered refused) := by
  unfold check
  cases ask server.files task with
  | ok value =>
    exact h.keeps_quiet alike_refl hphase (hanswered value)
  | error error =>
    exact h.keeps_quiet alike_refl hphase hrefused

theorem Sound.keeps_change (h : server.Sound) (htask : task.WritesOnly Beside)
    (hphase : ∀ project name value, ¬phase.Withdraws project name value)
    (hanswered : ∀ value, Harmless (answered value)) (hrefused : Harmless refused) :
    Keeps server phase (server.change task answered refused) := by
  have halike : Alike server { server with files := (task.finish applyChange server.files).1 } :=
    ⟨rfl, htask.finish fun hfile => hfile.1 rfl, htask.finish fun hfile => hfile.2 rfl, fun _ => rfl⟩
  unfold change onFiles
  rcases hfinish : task.finish applyChange server.files with ⟨files, value | error⟩
  all_goals rw [hfinish] at halike
  · exact h.keeps_quiet halike hphase hrefused
  · exact h.keeps_quiet halike hphase (hanswered _)

theorem Sound.keeps_bound (h : server.Sound) {scope : DataPlaneScope} {visible : CollectionName}
    (hphase : ∀ project name value, ¬phase.Withdraws project name value)
    (hnew : (∃ other ∈ next, other.Withdraws scope.projectId.asStr visible.asStr
        scope.collectionId.asStr) ∨ scope.projectId.asStr ∈ (server.files .store).projects ∧
      ∀ id : ProjectId, id.asStr = scope.projectId.asStr → .removingProject id ∉ server.requests)
    (hnext : Harmless next) : Keeps server phase (server.bound scope visible, next) := by
  refine ⟨rfl, fun _ => rfl, h.keyed, fun project name value hlisted => ?_,
    fun project hproject => .inl hproject, fun id project hproject => .inl hproject,
    fun phase hphase id hdeletes => absurd hdeletes (hnext phase hphase id),
    fun id hphase => absurd rfl (hnext _ hphase id)⟩
  rcases listed_bound hlisted with hbefore | ⟨rfl, rfl, rfl⟩
  · exact .inl ⟨hbefore, hphase _ _ _⟩
  · rcases hnew with hwithdraws | ⟨hexists, hnone⟩
    · exact .inr (.inl hwithdraws)
    · exact .inr (.inr ⟨hexists, fun id hid => ⟨hnone id hid, fun hmem => hnext _ hmem id rfl⟩⟩)

/-- The server with another content of the store. -/
def withStore (server : ProjectServer) (store : ControlPlaneState) : ProjectServer :=
  { server with files := Function.update server.files .store store }

theorem Sound.keeps_withProject (h : server.Sound) {project : Project}
    (hphase : ∀ project name value, ¬phase.Withdraws project name value)
    (hproject : project.lifecycle = .deleting ∨ ∀ phase ∈ server.requests, ¬phase.Deletes project.id)
    (hnext : Harmless next) :
    Keeps server phase (server.withStore ((server.files .store).withProject project), next) := by
  have hlookup (key : String) : ((server.files .store).withProject project).projects[key]? =
      if project.id.asStr = key then some project else (server.files .store).projects[key]? := by
    rw [ControlPlaneState.withProject, Std.ExtTreeMap.getElem?_insert]
    simp only [compare_eq_iff_eq]
  refine ⟨rfl, h.written, fun key other hother => ?_,
    fun _ name value hlisted => .inl ⟨hlisted, hphase _ _ _⟩,
    fun other hother => .inl (Std.ExtTreeMap.mem_insert.mpr (.inr hother)),
    fun id other hother => ?_, fun phase hphase id hdeletes => absurd hdeletes (hnext phase hphase id),
    fun id hphase => absurd rfl (hnext _ hphase id)⟩
  · have hother : ((server.files .store).withProject project).projects[key]? = some other := hother
    rw [hlookup] at hother
    split at hother
    · rename_i hkey
      exact Option.some.inj hother ▸ hkey
    · exact h.keyed key other hother
  · have hother : ((server.files .store).withProject project).projects[id.asStr]? = some other :=
      hother
    rw [hlookup] at hother
    split at hother
    · rename_i hkey
      cases Option.some.inj hother
      cases ProjectId.asStr_injective hkey
      exact .inr hproject
    · exact .inl hother

theorem Sound.keeps_removeProject (h : server.Sound) {id : ProjectId}
    (hphase : ∀ project name value, ¬phase.Withdraws project name value)
    (hnames : ∀ name value, server.Listed id.asStr name value →
      server.Withdrawn id.asStr name value) (hnext : Harmless next) :
    Keeps server phase (server.withStore ((server.files .store).apply (.removeProject id)), next) := by
  have hlookup (key : String) : ((server.files .store).apply (.removeProject id)).projects[key]? =
      if id.asStr = key then none else (server.files .store).projects[key]? := by
    rw [ControlPlaneState.apply, Std.ExtTreeMap.getElem?_erase]
    simp only [compare_eq_iff_eq]
  have hbefore {key : String} {other : Project}
      (hother : ((server.files .store).apply (.removeProject id)).projects[key]? = some other) :
      (server.files .store).projects[key]? = some other := by
    rw [hlookup] at hother
    split at hother
    · cases hother
    · exact hother
  refine ⟨rfl, h.written, fun key other hother => h.keyed key other (hbefore hother),
    fun _ name value hlisted => .inl ⟨hlisted, hphase _ _ _⟩, fun other hother => ?_,
    fun target other hother => .inl (hbefore hother),
    fun phase hphase id hdeletes => absurd hdeletes (hnext phase hphase id),
    fun id hphase => absurd rfl (hnext _ hphase id)⟩
  by_cases hid : id.asStr = other
  · subst hid
    exact .inr hnames
  · exact .inl (Std.ExtTreeMap.mem_erase.mpr ⟨fun hsame => hid (compare_eq_iff_eq.mp hsame), hother⟩)

theorem change_changeStore
    (plan : ControlPlaneState → Except ControlPlaneStoreError ControlPlaneChange)
    (answered : Unit → Option RequestPhase) :
    server.change (changeStore plan) answered refused = match plan (server.files .store) with
      | .ok change => (server.withStore ((server.files .store).apply change), answered ())
      | .error _ => (server, refused) := by
  unfold change onFiles
  rw [finish_changeStore]
  cases plan (server.files .store) <;> rfl

/-- A claim that is refused takes the name off again, any other is one of an active
project. -/
theorem Sound.keeps_authorizingClaim (h : server.Sound) (succeeds : Bool) (principal : Principal)
    (name : String) (collectionId : CollectionId) :
    Keeps server (.authorizingClaim principal name collectionId)
      (server.advance succeeds (.authorizingClaim principal name collectionId)) := by
  show Keeps server _ (check ..)
  unfold check
  cases hask : ask server.files (authorizePrincipalProject principal .collectionCreate) with
  | error error =>
    exact h.keeps_of_alike alike_refl (fun _ _ _ hwithdraws => ⟨_, rfl, hwithdraws⟩)
      (harmless_some fun _ hnot => hnot)
  | ok projectId =>
    have hnext : Harmless (some (.insertingClaim principal name collectionId projectId)) :=
      harmless_some fun _ hnot => hnot
    refine ⟨rfl, h.written, h.keyed, fun project other value hlisted => ?_,
      fun project hproject => .inl hproject, fun id project hproject => .inl hproject,
      fun phase hphase id hdeletes => absurd hdeletes (hnext phase hphase id),
      fun id hphase => absurd rfl (hnext _ hphase id)⟩
    by_cases hwithdraws : (RequestPhase.authorizingClaim principal name collectionId).Withdraws
      project other value
    · obtain ⟨id, visible, hproject, -, rfl, -, -⟩ := hwithdraws
      obtain ⟨project, hfound, hactive⟩ := active_of_authorizePrincipalProject hask hproject
      refine .inr (.inr ⟨Std.ExtTreeMap.mem_iff_isSome_getElem?.mpr ?_, fun target htarget =>
        ⟨fun hremoving => ?_, fun hmem => hnext _ hmem target rfl⟩⟩)
      · exact Option.isSome_iff_exists.mpr ⟨project, hfound⟩
      · cases ProjectId.asStr_injective htarget
        cases hactive.symm.trans (h.deleting _ hremoving _ rfl project hfound)
    · exact .inl ⟨hlisted, hwithdraws⟩

theorem Sound.keeps_next (h : server.Sound)
    (hphase : ∀ project name value, ¬phase.Withdraws project name value)
    (hdeletes : ∀ other ∈ next, ∀ id, other.Deletes id → ∀ project,
      (server.files .store).project id = some project → project.lifecycle = .deleting)
    (hempties : ∀ id, .removingProject id ∈ next → ∀ name value,
      ¬server.Listed id.asStr name value) : Keeps server phase (server, next) :=
  ⟨rfl, h.written, h.keyed, fun _ _ _ hlisted => .inl ⟨hlisted, hphase _ _ _⟩,
    fun _ hproject => .inl hproject, fun _ _ hproject => .inl hproject, hdeletes, hempties⟩

theorem Sound.keeps_removeScope (h : server.Sound) {principal : Principal} {name : String}
    {collectionId : CollectionId} (hphase : ∀ project other value,
      phase.Withdraws project other value →
        (RequestPhase.unbindingName principal name collectionId).Withdraws project other value) :
    Keeps server phase
      ((server.onCatalog (DataPlane.removeScope principal name collectionId)).1, none) := by
  obtain ⟨after, result, hrun, hrequests, hstore, hwritten, hlisted⟩ :=
    onCatalog_removeScope h principal name collectionId
  rw [hrun]
  refine ⟨hrequests, hwritten, ?_, fun project other value hafter => .inl ?_,
    fun project hproject => .inl ?_, fun id project hproject => .inl ?_,
    fun phase hphase id hdeletes => absurd hdeletes (harmless_none phase hphase id),
    fun id hphase => absurd rfl (harmless_none _ hphase id)⟩
  · show ∀ (key : String) (project : Project), (after.files .store).projects[key]? = some project →
      project.id.asStr = key
    rw [hstore]
    exact h.keyed
  · obtain ⟨hbefore, hnot⟩ := hlisted project other value hafter
    exact ⟨hbefore, fun hwithdraws => hnot (hphase _ _ _ hwithdraws)⟩
  · show project ∈ (after.files .store).projects
    rwa [hstore]
  · have hproject : (after.files .store).project id = some project := hproject
    rwa [hstore] at hproject

theorem Sound.keeps_bindingName (h : server.Sound) (succeeds : Bool) (principal : Principal)
    (name : String) (entropy : Option (List UInt8)) :
    Keeps server (.bindingName principal name entropy)
      (server.advance succeeds (.bindingName principal name entropy)) := by
  rcases @onCatalog_createScope server principal name entropy with
    ⟨after, hrun, halike⟩ | ⟨projectId, visible, collectionId, hproject, hname, hrun⟩
  · have hstep : server.advance succeeds (.bindingName principal name entropy) = (after, none) := by
      rw [advance_bindingName, hrun]
    rw [hstep]
    exact h.keeps_quiet halike (fun _ _ _ hnot => hnot) harmless_none
  · have hstep : server.advance succeeds (.bindingName principal name entropy) =
        (server.bound ⟨projectId, collectionId⟩ visible,
          some (.authorizingClaim principal name collectionId)) := by
      rw [advance_bindingName, hrun]
    rw [hstep]
    exact h.keeps_bound (fun _ _ _ hnot => hnot)
      (.inl ⟨_, rfl, projectId, visible, hproject, hname, rfl, rfl, rfl⟩)
      (harmless_some fun _ hnot => hnot)

theorem Sound.keeps_bindingLegacy (h : server.Sound) (succeeds : Bool) {principal : Principal}
    {name : String} {collectionId : CollectionId}
    (hspares : server.Spares (.bindingLegacy principal name collectionId)) :
    Keeps server (.bindingLegacy principal name collectionId)
      (server.advance succeeds (.bindingLegacy principal name collectionId)) := by
  rcases @onCatalog_bindLegacy server collectionId with
    ⟨after, _ | scope, hrun, halike⟩ | ⟨visible, hvisible, hnew, hrun⟩
  · have hstep : server.advance succeeds (.bindingLegacy principal name collectionId) =
        (after, none) := by
      rw [advance_bindingLegacy, hrun]
    rw [hstep]
    exact h.keeps_quiet halike (fun _ _ _ hnot => hnot) harmless_none
  · have hstep : server.advance succeeds (.bindingLegacy principal name collectionId) =
        (after, some (.deletingStored principal name scope.collectionId)) := by
      rw [advance_bindingLegacy, hrun]
    rw [hstep]
    exact h.keeps_quiet halike (fun _ _ _ hnot => hnot) (harmless_some fun _ hnot => hnot)
  · have hstep : server.advance succeeds (.bindingLegacy principal name collectionId) =
        (server.bound (.legacyDefault collectionId) visible,
          some (.deletingStored principal name collectionId)) := by
      rw [advance_bindingLegacy, hrun]
      rfl
    rw [hstep]
    rcases hspares with hbound | ⟨hexists, hnone⟩
    · exact absurd (hvisible ▸ hbound) hnew
    · refine h.keeps_bound (fun _ _ _ hnot => hnot) (.inr ⟨hexists, fun id hid hremoving => ?_⟩)
        (harmless_some fun _ hnot => hnot)
      exact hnone _ hremoving (ProjectId.asStr_injective hid)

theorem Sound.keeps_updatingProject (h : server.Sound) (succeeds : Bool) (principal : Principal)
    (id : ProjectId) (input : UpdateProjectInput) (now : ℕ) :
    Keeps server (.updatingProject principal id input now)
      (server.advance succeeds (.updatingProject principal id input now)) := by
  have hstep : server.advance succeeds (.updatingProject principal id input now) =
      ({ server with
        files := ((updateProject principal id input now).finish applyChange server.files).1 },
        none) := by
    show server.change _ _ _ = _
    unfold change onFiles
    rcases (updateProject principal id input now).finish applyChange server.files with
      ⟨files, value | error⟩ <;> rfl
  rw [hstep]
  have hupdated : Updated server.files id
    ((updateProject principal id input now).finish applyChange server.files).1 := finish_updateProject
  rcases hupdated with hsame | ⟨current, updated, hcurrent, hid, hlifecycle, hafter⟩
  · rw [hsame]
    exact h.keeps_quiet alike_refl (fun _ _ _ hnot => hnot) harmless_none
  · rw [hafter]
    refine h.keeps_withProject (fun _ _ _ hnot => hnot) ?_ harmless_none
    by_cases hdeleting : current.lifecycle = .deleting
    · exact .inl (hlifecycle hdeleting)
    · refine .inr fun other hother hdeletes => hdeleting ?_
      have hkey : current.id = id := ProjectId.asStr_injective (h.keyed _ _ hcurrent)
      rw [hid, hkey] at hdeletes
      exact h.deleting other hother id hdeletes current hcurrent

theorem Sound.keeps_listing (h : server.Sound) (succeeds : Bool) {id : ProjectId}
    (hphase : .listingCollections id ∈ server.requests) :
    Keeps server (.listingCollections id) (server.advance succeeds (.listingCollections id)) := by
  show Keeps server _ (check ..)
  unfold check
  cases hask : ask server.files (ensureNoCollections id) with
  | error error =>
    exact h.keeps_quiet alike_refl (fun _ _ _ hnot => hnot) harmless_none
  | ok value =>
    refine h.keeps_next (fun _ _ _ hnot => hnot) (fun other hother target hdeletes => ?_)
      fun target hnext name value hlisted => ?_
    · cases Option.some.inj hother
      exact h.deleting _ hphase target hdeletes
    · cases Option.some.inj hnext
      have hnone := names_of_ensureNoCollections hask name
      rw [h.written] at hnone
      cases hnone.symm.trans hlisted

theorem Sound.keeps_resolving (h : server.Sound) (succeeds : Bool) (principal : Principal)
    (name : String) : Keeps server (.resolving principal name)
      (server.advance succeeds (.resolving principal name)) := by
  rcases hfound : lookUp server.dataPlane principal name with error | scope | collectionId
  · have hstep : server.advance succeeds (.resolving principal name) = (server, none) := by
      rw [advance_resolving, hfound]
    rw [hstep]
    exact h.keeps_quiet alike_refl (fun _ _ _ hnot => hnot) harmless_none
  · have hstep : server.advance succeeds (.resolving principal name) =
        (server, some (.deletingStored principal name scope.collectionId)) := by
      rw [advance_resolving, hfound]
    rw [hstep]
    exact h.keeps_quiet alike_refl (fun _ _ _ hnot => hnot) (harmless_some fun _ hnot => hnot)
  · have hstep : server.advance succeeds (.resolving principal name) =
        (server, some (.bindingLegacy principal name collectionId)) := by
      rw [advance_resolving, hfound]
    rw [hstep]
    exact h.keeps_quiet alike_refl (fun _ _ _ hnot => hnot) (harmless_some fun _ hnot => hnot)

theorem Sound.keeps_findingProject (h : server.Sound) (succeeds : Bool) (principal : Principal)
    (id : ProjectId) : Keeps server (.findingProject principal id)
      (server.advance succeeds (.findingProject principal id)) := by
  cases hfound : (server.files .store).project id with
  | none =>
    have hstep : server.advance succeeds (.findingProject principal id) = (server, none) := by
      rw [advance_findingProject, hfound]
    rw [hstep]
    exact h.keeps_quiet alike_refl (fun _ _ _ hnot => hnot) harmless_none
  | some project =>
    have hstep : server.advance succeeds (.findingProject principal id) =
        (server, some (.authorizingDeletion principal id project)) := by
      rw [advance_findingProject, hfound]
    rw [hstep]
    refine h.keeps_next (fun _ _ _ hnot => hnot) (fun other hother target hdeletes => ?_)
      fun target hnext => ?_
    · cases Option.some.inj hother
      obtain ⟨rfl, hdeleting⟩ := hdeletes
      intro current hcurrent
      cases hfound.symm.trans hcurrent
      exact hdeleting
    · cases Option.some.inj hnext

theorem Sound.keeps_authorizingDeletion (h : server.Sound) (succeeds : Bool)
    {principal : Principal} {id : ProjectId} {project : Project}
    (hphase : .authorizingDeletion principal id project ∈ server.requests) :
    Keeps server (.authorizingDeletion principal id project)
      (server.advance succeeds (.authorizingDeletion principal id project)) := by
  show Keeps server _ (check ..)
  unfold check
  cases ask server.files (authorizeProjectManagement principal project) with
  | error error => exact h.keeps_quiet alike_refl (fun _ _ _ hnot => hnot) harmless_none
  | ok value =>
    by_cases hdeleting : project.lifecycle ≠ .deleting
    · dsimp only
      rw [if_pos hdeleting]
      exact h.keeps_quiet alike_refl (fun _ _ _ hnot => hnot) harmless_none
    · dsimp only
      rw [if_neg hdeleting]
      refine h.keeps_next (fun _ _ _ hnot => hnot) (fun other hother target hdeletes => ?_)
        fun target hnext => ?_
      · cases Option.some.inj hother
        exact h.deleting _ hphase target ⟨hdeletes, not_not.mp hdeleting⟩
      · cases Option.some.inj hnext

theorem Sound.keeps_removingProject (h : server.Sound) (succeeds : Bool) {id : ProjectId}
    (hphase : .removingProject id ∈ server.requests) :
    Keeps server (.removingProject id) (server.advance succeeds (.removingProject id)) := by
  show Keeps server _ (change ..)
  rw [change_changeStore]
  cases hplan : (server.files .store).deleteProject id with
  | error error => exact h.keeps_quiet alike_refl (fun _ _ _ hnot => hnot) harmless_none
  | ok change =>
    rw [ControlPlaneState.deleteProject_ok hplan]
    exact h.keeps_removeProject (fun _ _ _ hnot => hnot) (h.emptied id hphase)
      (harmless_some fun _ hnot => hnot)

theorem Sound.keeps_insertingProject (h : server.Sound) (succeeds : Bool) {principal : Principal}
    {project : Project} (hspares : server.Spares (.insertingProject principal project)) :
    Keeps server (.insertingProject principal project)
      (server.advance succeeds (.insertingProject principal project)) := by
  show Keeps server _ (change ..)
  rw [change_changeStore]
  cases hplan : (server.files .store).createProject project with
  | error error => exact h.keeps_quiet alike_refl (fun _ _ _ hnot => hnot) harmless_none
  | ok change =>
    obtain ⟨rfl, hnew, -⟩ := ControlPlaneState.createProject_ok hplan
    exact h.keeps_withProject (fun _ _ _ hnot => hnot) (.inr (hspares.resolve_left hnew))
      (harmless_some fun _ hnot => hnot)

theorem Sound.keeps_bootstrappingOwner (h : server.Sound) (succeeds : Bool) (principal : Principal)
    (id : ProjectId) : Keeps server (.bootstrappingOwner principal id)
      (server.advance succeeds (.bootstrappingOwner principal id)) := by
  cases hopen : ask server.files openProjectMemberships with
  | error error =>
    have hstep : server.advance succeeds (.bootstrappingOwner principal id) = (server, none) := by
      rw [advance_bootstrappingOwner, hopen]
    rw [hstep]
    exact h.keeps_quiet alike_refl (fun _ _ _ hnot => hnot) harmless_none
  | ok memberships =>
    have hstep : server.advance succeeds (.bootstrappingOwner principal id) = server.change
        (ProjectMembershipService.bootstrapOwner memberships id principal.subject)
        (fun _ => none) (some (.rollingBack id)) := by
      rw [advance_bootstrappingOwner, hopen]
    rw [hstep]
    exact h.keeps_change beside_bootstrapOwner (fun _ _ _ hnot => hnot) (fun _ => harmless_none)
      (harmless_some fun _ hnot => hnot)

theorem Sound.keeps_rollingBack (h : server.Sound) (succeeds : Bool) {id : ProjectId}
    (hspares : server.Spares (.rollingBack id)) :
    Keeps server (.rollingBack id) (server.advance succeeds (.rollingBack id)) := by
  show Keeps server _ (change ..)
  rw [change_changeStore]
  cases hplan : (server.files .store).deleteProject id with
  | error error => exact h.keeps_quiet alike_refl (fun _ _ _ hnot => hnot) harmless_none
  | ok change =>
    rw [ControlPlaneState.deleteProject_ok hplan]
    refine h.keeps_removeProject (fun _ _ _ hnot => hnot) (fun name value hlisted => ?_) harmless_none
    rcases hspares with habsent | hempty
    · unfold ControlPlaneState.deleteProject at hplan
      rw [if_neg habsent] at hplan
      cases hplan
    · have hnone : server.catalog.names id.asStr = ∅ := Std.ExtTreeMap.isEmpty_iff.mp hempty
      rw [Listed, hnone] at hlisted
      cases Std.ExtTreeMap.getElem?_empty.symm.trans hlisted

theorem Sound.keeps_advance (h : server.Sound) (hphase : phase ∈ server.requests)
    (hspares : server.Spares phase) (succeeds : Bool) :
    Keeps server phase (server.advance succeeds phase) := by
  cases phase with
  | admittingCreation principal name entropy | admittingDeletion principal name
  | authorizingRemoval principal name collectionId
  | authorizingProject principal organizationId input now
  | planningProject principal organizationId input now =>
    exact h.keeps_check (fun _ _ _ hnot => hnot) (fun _ => harmless_some fun _ hnot => hnot)
      harmless_none
  | insertingClaim principal name collectionId projectId =>
    exact h.keeps_change beside_insertClaim (fun _ _ _ hnot => hnot)
      (fun _ => harmless_some fun _ hnot => hnot) (harmless_some fun _ hnot => hnot)
  | releasingClaim principal name collectionId claim =>
    exact h.keeps_change beside_release (fun _ _ _ hnot => hnot)
      (fun _ => harmless_some fun _ hnot => hnot) (harmless_some fun _ hnot => hnot)
  | removingPolicies principal name collectionId =>
    exact h.keeps_change beside_removePolicies (fun _ _ _ hnot => hnot)
      (fun _ => harmless_some fun _ hnot => hnot) harmless_none
  | purgingMembers target =>
    exact h.keeps_change beside_purgeMembers (fun _ _ _ hnot => hnot) (fun _ => harmless_none)
      harmless_none
  | authorizingClaim principal name collectionId =>
    exact h.keeps_authorizingClaim succeeds principal name collectionId
  | bindingName principal name entropy => exact h.keeps_bindingName succeeds principal name entropy
  | bindingLegacy principal name collectionId => exact h.keeps_bindingLegacy succeeds hspares
  | unbindingName principal name collectionId => exact h.keeps_removeScope fun _ _ _ hsame => hsame
  | removingName principal name collectionId => exact h.keeps_removeScope fun _ _ _ hnot => hnot.elim
  | updatingProject principal target input now =>
    exact h.keeps_updatingProject succeeds principal target input now
  | listingCollections target => exact h.keeps_listing succeeds hphase
  | storing principal name collectionId claim =>
    cases succeeds with
    | true =>
      have halike (runtimes : Std.ExtTreeMap CollectionId (Option DataPlaneScope) compare) :
          Alike server { server with runtimes } := ⟨rfl, rfl, rfl, fun _ => rfl⟩
      exact h.keeps_quiet (halike _) (fun _ _ _ hnot => hnot) harmless_none
    | false =>
      exact h.keeps_quiet alike_refl (fun _ _ _ hnot => hnot) (harmless_some fun _ hnot => hnot)
  | deletingStored principal name collectionId =>
    cases succeeds with
    | true =>
      have halike (runtimes : Std.ExtTreeMap CollectionId (Option DataPlaneScope) compare) :
          Alike server { server with runtimes } := ⟨rfl, rfl, rfl, fun _ => rfl⟩
      exact h.keeps_quiet (halike _) (fun _ _ _ hnot => hnot) (harmless_some fun _ hnot => hnot)
    | false => exact h.keeps_quiet alike_refl (fun _ _ _ hnot => hnot) harmless_none
  | resolving principal name => exact h.keeps_resolving succeeds principal name
  | findingProject principal target => exact h.keeps_findingProject succeeds principal target
  | authorizingDeletion principal target project =>
    exact h.keeps_authorizingDeletion succeeds hphase
  | removingProject target => exact h.keeps_removingProject succeeds hphase
  | insertingProject principal project => exact h.keeps_insertingProject succeeds hspares
  | bootstrappingOwner principal target => exact h.keeps_bootstrappingOwner succeeds principal target
  | rollingBack target => exact h.keeps_rollingBack succeeds hspares

end Phases

/-! ### A deletion that runs alone -/

/-- The phases of a request that runs alone, at most so many. -/
def alone (server : ProjectServer) : ℕ → Option RequestPhase → ProjectServer
  | 0, _ | _, none => server
  | count + 1, some phase =>
      (server.advance true phase).1.alone count (server.advance true phase).2

theorem alone_none (count : ℕ) : server.alone count none = server := by
  cases count <;> rfl

theorem alone_step {count : ℕ} (h : server.advance true phase = (after, next)) :
    server.alone (count + 1) (some phase) = after.alone count next := by
  rw [alone, h]

theorem onFiles_bind {ε α β : Type} {task : ApiTask ε α} (htask : task.ReadOnly)
    (next : α → ApiTask ε β) : (server.onFiles (task >>= next)).1 =
      match ask server.files task with
      | .ok value => (server.onFiles (next value)).1
      | .error _ => server := by
  unfold onFiles
  rw [htask.finish_bind, ask]
  cases task.answer applyChange server.files <;> rfl

theorem onFiles_commit {β : Type} (plan : Except ControlPlaneStoreError ControlPlaneChange)
    (next : ApiTask ControlPlaneApiError β) :
    (server.onFiles (do
      let _ ← (commit (server.files .store) plan).mapError mapStoreError
      next)).1 = match plan with
      | .ok change => ((server.withStore ((server.files .store).apply change)).onFiles next).1
      | .error _ => server := by
  cases plan <;> rfl

theorem alone_purging {id : ProjectId} :
    server.alone 1 (some (.purgingMembers id)) = (server.onFiles (purgeMembers id)).1 := by
  show (server.change (purgeMembers id) _ _).1 = _
  unfold change
  rcases server.onFiles (purgeMembers id) with ⟨after, value | error⟩ <;> rfl

/-- Alone, the phases of a deletion do what the call does. -/
theorem alone_deleteProject (principal : Principal) (id : ProjectId) :
    server.alone 5 (some (.findingProject principal id)) =
      (server.onFiles (deleteProject principal id)).1 := by
  have hcall : server.onFiles (deleteProject principal id) =
      server.onFiles (found ((server.files .store).project id) >>= fun project => do
        authorizeProjectManagement principal project
        if project.lifecycle ≠ .deleting then throw .resourceNotDeleting
        else
          ensureNoCollections id
          let _ ← (commit (server.files .store) ((server.files .store).deleteProject id)).mapError
            mapStoreError
          purgeMembers id : ApiTask ControlPlaneApiError Unit) := rfl
  rw [hcall, onFiles_bind readOnly_found]
  cases hfound : (server.files .store).project id with
  | none =>
    have hstep : server.advance true (.findingProject principal id) = (server, none) := by
      rw [advance_findingProject, hfound]
    rw [alone_step hstep, alone_none]
    rfl
  | some project =>
    have hstep : server.advance true (.findingProject principal id) =
        (server, some (.authorizingDeletion principal id project)) := by
      rw [advance_findingProject, hfound]
    rw [alone_step hstep]
    show _ = (server.onFiles (authorizeProjectManagement principal project >>= _)).1
    rw [onFiles_bind readOnly_authorizeProjectManagement]
    cases hask : ask server.files (authorizeProjectManagement principal project) with
    | error error =>
      have hstep : server.advance true (.authorizingDeletion principal id project) =
          (server, none) := by
        exact check_error hask
      rw [alone_step hstep, alone_none]
    | ok value =>
      by_cases hdeleting : project.lifecycle ≠ .deleting
      · have hstep : server.advance true (.authorizingDeletion principal id project) =
            (server, none) := by
          exact (check_ok hask).trans (congrArg (Prod.mk server) (if_pos hdeleting))
        rw [alone_step hstep, alone_none]
        dsimp only
        rw [if_pos hdeleting]
        rfl
      · have hstep : server.advance true (.authorizingDeletion principal id project) =
            (server, some (.listingCollections id)) := by
          exact (check_ok hask).trans (congrArg (Prod.mk server) (if_neg hdeleting))
        rw [alone_step hstep]
        dsimp only
        rw [if_neg hdeleting, onFiles_bind readOnly_ensureNoCollections]
        cases hlisted : ask server.files (ensureNoCollections id) with
        | error error =>
          have hstep : server.advance true (.listingCollections id) = (server, none) := by
            exact check_error hlisted
          rw [alone_step hstep, alone_none]
        | ok value =>
          have hstep : server.advance true (.listingCollections id) =
              (server, some (.removingProject id)) := by
            exact check_ok hlisted
          rw [alone_step hstep]
          dsimp only
          rw [onFiles_commit]
          have hstep : server.advance true (.removingProject id) =
              match (server.files .store).deleteProject id with
              | .ok change => (server.withStore ((server.files .store).apply change),
                  some (.purgingMembers id))
              | .error _ => (server, none) := change_changeStore ..
          rw [alone_step (Prod.eta _).symm, hstep]
          cases (server.files .store).deleteProject id with
          | error error => exact alone_none 1
          | ok change => exact alone_purging
/-! ### Runs -/

/-- Nothing is in flight, and every name belongs to a project. -/
structure Settled (server : ProjectServer) : Prop where
  idle : server.requests = []
  written : ∀ project, ((server.files .collections).getD .default).names project =
    server.catalog.names project
  keyed : ∀ (key : String) (project : Project), (server.files .store).projects[key]? = some project →
    project.id.asStr = key
  owned : ∀ project name value, server.Listed project name value →
    project ∈ (server.files .store).projects

theorem Settled.sound (h : server.Settled) : server.Sound := by
  have hnone {phase : RequestPhase} : phase ∉ server.requests := by
    rw [h.idle]
    exact List.not_mem_nil
  exact ⟨h.written, h.keyed, fun project name value hlisted => .inl (h.owned project name value hlisted),
    fun phase hphase => absurd hphase hnone, fun id hphase => absurd hphase hnone⟩

theorem Sound.receive (h : server.Sound) (request : ProjectRequest) :
    (server.step (.receive request)).Sound := by
  have hmem {phase : RequestPhase} (hphase : phase ∈ (server.step (.receive request)).requests) :
      phase ∈ server.requests ∨ phase = request.start :=
    (List.mem_append.mp hphase).imp_right List.mem_singleton.mp
  have hwithdrawn {project name value : String} (hpending : server.Withdrawn project name value) :
      (server.step (.receive request)).Withdrawn project name value := by
    obtain ⟨phase, hphase, hwithdraws⟩ := hpending
    exact ⟨phase, List.mem_append_left _ hphase, hwithdraws⟩
  have hstart (id : ProjectId) : ¬request.start.Deletes id := by
    cases request <;> exact fun hnot => hnot
  refine ⟨h.written, h.keyed, fun project name value hlisted =>
    (h.owned project name value hlisted).imp_right hwithdrawn, fun phase hphase id hdeletes => ?_,
    fun id hphase name value hlisted => ?_⟩
  · rcases hmem hphase with hbefore | rfl
    · exact h.deleting phase hbefore id hdeletes
    · exact absurd hdeletes (hstart id)
  · rcases hmem hphase with hbefore | hnew
    · exact hwithdrawn (h.emptied id hbefore name value hlisted)
    · refine absurd ?_ (hstart id)
      rw [← hnew]
      rfl

theorem Sound.occur (h : server.Sound) {event : ProjectEvent}
    (hundisturbed : server.Undisturbed event) : (server.step event).Sound := by
  cases event with
  | receive request => exact h.receive request
  | advance index succeeds =>
    rw [step]
    cases hphase : server.requests[index]? with
    | none => exact h
    | some phase =>
      exact h.of_keeps hphase (h.keeps_advance (List.mem_of_getElem? hphase)
        (hundisturbed phase hphase) succeeds)

/-- Whenever nothing is in flight, every collection of the catalog belongs to a project. -/
def KeepsCollections (allowed : ProjectServer → ProjectEvent → Prop) : Prop :=
  ∀ server after : ProjectServer, server.Settled → Reaches step allowed server after →
    after.requests = [] → ∀ project name value, after.Listed project name value →
      project ∈ (after.files .store).projects

theorem keepsCollections {server after : ProjectServer} (hsettled : server.Settled)
    (hrun : Reaches step Undisturbed server after) (hidle : after.requests = [])
    (project name value : String)
    (hlisted : after.Listed project name value) : project ∈ (after.files .store).projects := by
  have hsound : after.Sound := hrun.invariant Sound hsettled.sound fun _ _ h hundisturbed =>
    h.occur hundisturbed
  rcases hsound.owned project name value hlisted with hexists | ⟨phase, hphase, -⟩
  · exact hexists
  · rw [hidle] at hphase
    cases hphase

instance (server : ProjectServer) (phase : RequestPhase) : Decidable (server.Spares phase) := by
  unfold Spares
  cases phase <;> infer_instance

instance (server : ProjectServer) (event : ProjectEvent) : Decidable (server.Undisturbed event) := by
  unfold Undisturbed
  cases event <;> infer_instance

/-! ### A project that comes back -/

section Sample

def workerA : Principal := ⟨"worker", .workloadCredential, some "project-a", none⟩

def projectServer (projects : Std.ExtTreeMap String Project compare) : ProjectServer :=
  ⟨World.sampleFiles projects World.sampleMembers .default, .default, ∅, []⟩

theorem settled_projectServer {lifecycle : ResourceLifecycleState}
    {projects : Std.ExtTreeMap String Project compare}
    (h : ∀ key : String, projects[key]? =
      if "project-a" = key then some (World.sampleProject lifecycle) else none) :
    (projectServer projects).Settled := by
  refine ⟨rfl, fun _ => rfl, fun key project hproject => ?_, fun project name value hlisted => ?_⟩
  · have hproject : projects[key]? = some project := hproject
    rw [h] at hproject
    split at hproject
    · rename_i hkey
      cases Option.some.inj hproject
      exact hkey
    · cases hproject
  · cases Std.ExtTreeMap.getElem?_empty.symm.trans hlisted

theorem getElem?_activeProjects (key : String) : World.activeProjects[key]? =
    if "project-a" = key then some (World.sampleProject .active) else none := by
  simp only [World.activeProjects, Std.ExtTreeMap.getElem?_insert, compare_eq_iff_eq,
    Std.ExtTreeMap.getElem?_empty]

theorem getElem?_deletingProjects (key : String) : World.deletingProjects[key]? =
    if "project-a" = key then some (World.sampleProject .deleting) else none := by
  simp only [World.deletingProjects, Std.ExtTreeMap.getElem?_insert, compare_eq_iff_eq,
    getElem?_activeProjects]
  split <;> rfl

def createDocs : ProjectRequest := .createCollection workerA "docs" (some (List.replicate 16 0))

def deleteProjectA : ProjectRequest := .deleteProject ownerPrincipal World.projectA

/-- The next phases of a request. -/
def advances (index count : ℕ) : List ProjectEvent := List.replicate count (.advance index true)

/-- A collection is created, and its project is not deleted although it is in deletion. -/
def keptRun : List ProjectEvent :=
  .receive createDocs :: advances 0 5 ++
    .receive (.updateProject ownerPrincipal World.projectA ⟨"A", "a", .deleting⟩ 0) ::
      advances 0 1 ++ .receive deleteProjectA :: advances 0 3

theorem keepsCollections_kept :
    "project-a" ∈ ((keptRun.foldl step (projectServer World.activeProjects)).files .store).projects :=
  keepsCollections (settled_projectServer getElem?_activeProjects)
    (Reaches.of_allowed (by decide +kernel)) (List.isEmpty_iff.mp (by decide +kernel)) "project-a"
    "docs" "c_00000000000000000000000000000000" (by unfold Listed; decide +kernel)

/-- Two requests delete the project. Between the steps of the first, the second is done,
and the project is created again and gets a collection. -/
def orphaningRun : List ProjectEvent :=
  .receive deleteProjectA :: advances 0 3 ++ .receive deleteProjectA :: advances 1 5 ++
    .receive (.createProject ownerPrincipal organizationA.id ⟨"project-a", "A", "a"⟩ 0) ::
      advances 1 4 ++ .receive createDocs :: advances 1 5 ++ advances 0 2

theorem not_keepsCollections : ¬KeepsCollections fun _ _ => True := by
  intro h
  have hrun : Reaches step (fun _ _ => True) (projectServer World.deletingProjects) _ :=
    Reaches.foldl orphaningRun _
  have hidle : (orphaningRun.foldl step (projectServer World.deletingProjects)).requests = [] :=
    List.isEmpty_iff.mp (by decide +kernel)
  have hlisted : (orphaningRun.foldl step (projectServer World.deletingProjects)).Listed "project-a"
      "docs" "c_00000000000000000000000000000000" := by
    unfold Listed
    decide +kernel
  have hgone : "project-a" ∉
      ((orphaningRun.foldl step (projectServer World.deletingProjects)).files .store).projects := by
    decide +kernel
  exact hgone (h _ _ (settled_projectServer getElem?_deletingProjects) hrun hidle _ _ _ hlisted)

end Sample

end ProjectServer

end ControlPlane

end Ketebe
