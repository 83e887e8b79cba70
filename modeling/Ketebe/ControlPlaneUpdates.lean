import Ketebe.ControlPlaneApi

/-!
Concurrent calls of the control plane. Every call opens its own instances, so two
calls can read the same file and the later write undoes the earlier one. Nothing
is lost in the runs in which each write meets its file as the instance read it.
-/
namespace Ketebe.ControlPlane

open Lib.ByteCodec Lib.Runs Lib.WholeFiles Lib.WholeFiles.Task Lib.WholeFiles.Layout

/-! ### Calls that only read -/

section ReadOnly

variable {ε ε' α : Type}

theorem readOnly_openStore : (openStore : ApiTask ε ControlPlaneState).ReadOnly :=
  fun _ => readOnly_pure

theorem readOnly_openOrganizationMemberships : openOrganizationMemberships.ReadOnly :=
  readOnly_openStore.bind fun _ _ => (readOnly_lift _).bind fun _ => readOnly_pure

theorem readOnly_openProjectMemberships : openProjectMemberships.ReadOnly :=
  readOnly_openStore.bind fun _ _ => (readOnly_lift _).bind fun _ => readOnly_pure

theorem readOnly_isOk {task : ApiTask ε α} (h : task.ReadOnly) :
    (isOk task : ApiTask ε' Bool).ReadOnly :=
  (h.bind fun _ => readOnly_pure).handle fun _ => readOnly_pure

theorem readOnly_ite {condition : Prop} [Decidable condition] {task other : ApiTask ε α}
    (h : task.ReadOnly) (hother : other.ReadOnly) :
    (if condition then task else other).ReadOnly := by
  by_cases hcondition : condition
  · rwa [if_pos hcondition]
  · rwa [if_neg hcondition]

theorem readOnly_openAuthorization : openAuthorization.ReadOnly :=
  fun _ => readOnly_ite readOnly_throw (readOnly_openStore.bind fun _ => readOnly_pure)

theorem readOnly_authorizeProject {principal : Principal} {action : AuthorizationAction}
    {id : ProjectId} : (authorizeProject principal action id).ReadOnly := by
  apply readOnly_openStore.bind
  intro controlPlane
  cases controlPlane.project id with
  | none => exact readOnly_throw
  | some project =>
    refine readOnly_ite readOnly_throw (readOnly_ite ?_ fun file => ?_)
    · exact readOnly_ite readOnly_throw (readOnly_ite readOnly_pure readOnly_throw)
    · exact (readOnly_lift _).bind fun _ => readOnly_lift _

theorem readOnly_organizationAuthorized {principal : Principal} {id : OrganizationId}
    {action : OrganizationAction} : (organizationAuthorized principal id action).ReadOnly :=
  readOnly_openOrganizationMemberships.bind fun _ => readOnly_pure

theorem readOnly_authorizeOrganization {principal : Principal} {id : OrganizationId}
    {action : OrganizationAction} : (authorizeOrganization principal id action).ReadOnly :=
  readOnly_organizationAuthorized.bind fun _ => readOnly_ite readOnly_pure readOnly_throw

theorem readOnly_authorizeProjectManagement {principal : Principal} {project : Project} :
    (authorizeProjectManagement principal project).ReadOnly := by
  apply readOnly_organizationAuthorized.bind
  intro authorized
  refine readOnly_ite readOnly_pure (readOnly_openAuthorization.mapError.bind fun _ => ?_)
  exact (readOnly_isOk readOnly_authorizeProject).bind fun _ =>
    readOnly_ite readOnly_pure readOnly_throw

theorem readOnly_found {value : Option α} : (found value).ReadOnly := by
  cases value with
  | none => exact readOnly_throw
  | some value => exact readOnly_pure

theorem readOnly_ensureNoCollections {id : ProjectId} : (ensureNoCollections id).ReadOnly :=
  fun _ => (readOnly_lift _).bind fun _ => (readOnly_lift _).bind fun _ =>
    readOnly_ite readOnly_pure readOnly_throw

theorem readOnly_auditRefusal {error : MembershipError} :
    (auditRefusal error : ApiTask ControlPlaneApiError α).ReadOnly :=
  readOnly_openStore.bind fun _ => readOnly_throw

end ReadOnly

/-! ### What a call writes -/

/-- Every project's organization exists in the stored control plane. -/
def Parented (files : Files) : Prop := (files .store).Parented

/-- The task keeps the stored projects parented, and its success is as required. -/
abbrev Delivers {ε α : Type} (task : ApiTask ε α) (ok : α → Held Item ItemValue → Prop)
    (held : Held Item ItemValue) : Prop :=
  layout.Ensures Parented ⟨ok, fun _ _ => True⟩ task held

/-! The items that a call has set after it replaced a file. -/

def afterStore (change : ControlPlaneChange) (held : Held Item ItemValue) : Held Item ItemValue :=
  fun item => (storeSets change item).or (held item)

def afterOrganizationMembers (change : MembershipChange OrganizationRole)
    (held : Held Item ItemValue) : Held Item ItemValue :=
  fun item => (organizationMemberSets change item).or (held item)

def afterProjectMembers (change : MembershipChange ProjectRole) (held : Held Item ItemValue) :
    Held Item ItemValue :=
  fun item => (projectMemberSets change item).or (held item)

section Delivers

variable {ε ε' α β : Type} {task : ApiTask ε α} {next : α → ApiTask ε β}
  {held : Held Item ItemValue}

/-- After a task that only reads, what comes next counts. -/
theorem delivers_read {ok : β → Held Item ItemValue → Prop} (h : task.ReadOnly)
    (hnext : ∀ value, Delivers (next value) ok held) : Delivers (task >>= next) ok held :=
  ensures_bind (ensures_readOnly h hnext fun _ => trivial)

theorem delivers_lift {result : Except ε α} {ok : β → Held Item ItemValue → Prop}
    (hnext : ∀ value, result = .ok value → Delivers (next value) ok held) :
    Delivers (lift result >>= next) ok held :=
  ensures_bind (ensures_lift hnext fun _ _ => trivial)

theorem delivers_bind {ok : α → Held Item ItemValue → Prop}
    {ok' : β → Held Item ItemValue → Prop} (h : Delivers task ok held)
    (hnext : ∀ value held', ok value held' → Delivers (next value) ok' held') :
    Delivers (task >>= next) ok' held :=
  ensures_bind (h.mono hnext fun _ _ _ => trivial)

theorem delivers_mono {ok ok' : α → Held Item ItemValue → Prop} (h : Delivers task ok held)
    (hok : ∀ value held', ok value held' → ok' value held') : Delivers task ok' held :=
  h.mono hok fun _ _ _ => trivial

theorem delivers_mapError {ok : α → Held Item ItemValue → Prop} {f : ε → ε'}
    (h : Delivers task ok held) : Delivers (task.mapError f) ok held :=
  ensures_mapError h

theorem delivers_handle {ok : α → Held Item ItemValue → Prop} {handler : ε → ApiTask ε' α}
    (h : Delivers task ok held) (hhandler : ∀ error held', Delivers (handler error) ok held') :
    Delivers (task.handle handler) ok held :=
  ensures_handle (h.mono (fun _ _ h => h) fun error held' _ => hhandler error held')

/-- An operation of the store that keeps the projects parented. -/
def KeepsParented (store : ControlPlaneState)
    (plan : Except ControlPlaneStoreError ControlPlaneChange) : Prop :=
  ∀ change, plan = .ok change → store.Parented → (store.apply change).Parented

theorem ensures_commit {post : Post Item ItemValue ControlPlaneStoreError ControlPlaneState}
    {store : ControlPlaneState} {plan : Except ControlPlaneStoreError ControlPlaneChange}
    (hkeeps : KeepsParented store plan)
    (hok : ∀ change, plan = .ok change →
      post.ok (store.apply change) (afterStore change held))
    (herror : ∀ error held, post.error error held) :
    layout.Ensures Parented post (commit store plan) held := by
  apply ensures_bind
  refine ensures_lift (fun change hplan => ⟨fun files hseen hfiles => ?_, hok change hplan,
    herror _ _⟩) fun error _ => herror error held
  have hfiles : store.Parented := hseen ▸ hfiles
  rw [Parented, Function.update_self]
  exact hkeeps change hplan hfiles

theorem delivers_commit {store : ControlPlaneState} {f : ControlPlaneStoreError → ε}
    {plan : Except ControlPlaneStoreError ControlPlaneChange} {change : ControlPlaneChange}
    (hkeeps : KeepsParented store plan) (hplan : ∀ allowed, plan = .ok allowed → allowed = change) :
    Delivers ((commit store plan).mapError f) (fun _ held' => held' = afterStore change held)
      held :=
  delivers_mapError (ensures_commit hkeeps (fun allowed hallowed => hplan allowed hallowed ▸ rfl)
    fun _ _ => trivial)

theorem ensures_isOk {post : Post Item ItemValue ε' Bool}
    (h : layout.Ensures Parented ⟨fun _ held => post.ok true held, fun _ held =>
      post.ok false held⟩ task held) : layout.Ensures Parented post (isOk task) held :=
  ensures_handle (ensures_bind (h.mono (fun _ _ h => h) fun _ _ h => h))

/-- Undoing a creation fails in the end. -/
theorem delivers_rollBack {store : ControlPlaneState} {error : ControlPlaneApiError}
    {plan : Except ControlPlaneStoreError ControlPlaneChange}
    {ok : α → Held Item ItemValue → Prop} (hkeeps : KeepsParented store plan) :
    Delivers (rollBack store plan error) ok held := by
  apply ensures_bind
  apply ensures_isOk
  exact ensures_commit hkeeps (fun _ _ => trivial) fun _ _ => trivial

end Delivers

/-! ### Memberships -/

section Memberships

variable {Role : Type} {service : MembershipService Role}
  {persist : MembershipChange Role → ApiTask MembershipError Unit}
  {after : MembershipChange Role → Held Item ItemValue → Held Item ItemValue}
  {authorized : Except MembershipError Unit} {resourceId subject : String} {role : Role}
  {held : Held Item ItemValue}

/-- The service writes a file of members, with this effect on the items. -/
def Writes (persist : MembershipChange Role → ApiTask MembershipError Unit)
    (after : MembershipChange Role → Held Item ItemValue → Held Item ItemValue) : Prop :=
  ∀ (post : Post Item ItemValue MembershipError Unit) (change : MembershipChange Role)
    (held : Held Item ItemValue), post.ok () (after change held) →
      (∀ error held, post.error error held) → layout.Ensures Parented post (persist change) held

theorem writes_organization (service : OrganizationMembershipService) :
    Writes (OrganizationMembershipService.persist service)
      afterOrganizationMembers := by
  intro post change held hok herror
  refine ⟨fun files _ hfiles => ?_, hok, herror _ _⟩
  rw [Parented, Function.update_of_ne (by decide)]
  exact hfiles

theorem writes_project (service : ProjectMembershipService) :
    Writes (ProjectMembershipService.persist service)
      afterProjectMembers := by
  intro post change held hok herror
  refine ⟨fun files _ hfiles => ?_, hok, herror _ _⟩
  rw [Parented, Function.update_of_ne (by decide)]
  exact hfiles

theorem delivers_create (hpersist : Writes persist after) :
    Delivers (service.create persist authorized resourceId subject role) (fun membership held' =>
      membership = ⟨resourceId, subject, role⟩ ∧ held' = after (.insert membership) held) held := by
  apply delivers_read (readOnly_lift _)
  intro _
  apply delivers_lift
  intro membership hplan
  have hmembership := MembershipFile.createMembership_ok hplan
  apply ensures_bind
  exact hpersist _ _ _ ⟨hmembership, rfl⟩ fun _ _ => trivial

theorem delivers_purge (hpersist : Writes persist after) :
    Delivers (service.purge persist resourceId) (fun _ held' =>
      held' = after (.purge resourceId) held ∨ held' = held) held := by
  unfold MembershipService.purge
  split
  · exact hpersist _ _ _ (.inl rfl) fun _ _ => trivial
  · exact ensures_pure (.inr rfl)

variable [MembershipRole Role]

theorem delivers_bootstrap (hpersist : Writes persist after) :
    Delivers (service.bootstrap persist resourceId subject) (fun _ held' =>
      held' = after (.insert ⟨resourceId, subject, MembershipRole.owner⟩) held) held := by
  apply delivers_lift
  intro membership hplan
  rw [MembershipFile.bootstrapOwner_ok hplan]
  exact hpersist _ _ _ rfl fun _ _ => trivial

theorem delivers_update (hpersist : Writes persist after) :
    Delivers (service.update persist authorized resourceId subject role) (fun membership held' =>
      membership = ⟨resourceId, subject, role⟩ ∧ held' = after (.insert membership) held) held := by
  apply delivers_read (readOnly_lift _)
  intro _
  apply delivers_lift
  intro membership hplan
  have hmembership := MembershipFile.updateRole_ok hplan
  apply ensures_bind
  exact hpersist _ _ _ ⟨hmembership, rfl⟩ fun _ _ => trivial

theorem delivers_upsert {reads : Except MembershipError Unit} (hpersist : Writes persist after) :
    Delivers (service.upsert persist authorized resourceId subject reads role)
      (fun membership held' => membership = ⟨resourceId, subject, role⟩ ∧
        held' = after (.insert membership) held) held := by
  unfold MembershipService.upsert
  split
  · exact delivers_update hpersist
  · exact delivers_create hpersist
  · exact ensures_throw trivial

theorem delivers_remove (hpersist : Writes persist after) :
    Delivers (service.remove persist authorized resourceId subject) (fun _ held' =>
      held' = after (.remove resourceId subject) held) held := by
  apply delivers_read (readOnly_lift _)
  intro _
  apply delivers_read (readOnly_lift _)
  intro _
  exact hpersist _ _ _ rfl fun _ _ => trivial

end Memberships

/-! ### Calls -/

section Calls

variable {store : ControlPlaneState} {principal : Principal} {held : Held Item ItemValue}

theorem keepsParented_createOrganization {organization : Organization} :
    KeepsParented store (store.createOrganization organization) := by
  intro change hplan h
  obtain ⟨rfl, -⟩ := ControlPlaneState.createOrganization_ok hplan
  exact h.withOrganization organization

theorem keepsParented_updateOrganization {organization : Organization} :
    KeepsParented store (store.updateOrganization organization) := by
  intro change hplan h
  rw [ControlPlaneState.updateOrganization_ok hplan]
  exact h.withOrganization organization

theorem keepsParented_deleteOrganization {id : OrganizationId} :
    KeepsParented store (store.deleteOrganization id) := by
  intro change hplan h
  obtain ⟨rfl, hnone⟩ := ControlPlaneState.deleteOrganization_ok hplan
  exact h.removeOrganization hnone

theorem keepsParented_createProject {project : Project} :
    KeepsParented store (store.createProject project) := by
  intro change hplan h
  obtain ⟨rfl, -, hparent⟩ := ControlPlaneState.createProject_ok hplan
  exact h.withProject hparent

theorem keepsParented_updateProject {project : Project} :
    KeepsParented store (store.updateProject project) := by
  intro change hplan h
  obtain ⟨rfl, hparent⟩ := ControlPlaneState.updateProject_ok hplan
  exact h.withProject hparent

theorem keepsParented_deleteProject {id : ProjectId} :
    KeepsParented store (store.deleteProject id) := by
  intro change hplan h
  rw [ControlPlaneState.deleteProject_ok hplan]
  exact h.removeProject id

theorem delivers_checkInput {α β : Type} {result : Except ControlPlaneDomainError α}
    {next : α → ApiTask ControlPlaneApiError β} {ok : β → Held Item ItemValue → Prop}
    (hnext : ∀ value, result = .ok value → Delivers (next value) ok held) :
    Delivers (checkInput result >>= next) ok held :=
  delivers_lift fun value h => hnext value (mapError_ok_iff.mp h)

theorem delivers_bootstrapOrganization {service : OrganizationMembershipService}
    {id : OrganizationId} {subject : String} :
    Delivers (OrganizationMembershipService.bootstrapOwner service id subject) (fun _ held' =>
      held' = afterOrganizationMembers (.insert ⟨id.asStr, subject, .owner⟩) held) held := by
  unfold OrganizationMembershipService.bootstrapOwner
  split
  · exact ensures_throw trivial
  · split
    · exact ensures_throw trivial
    · exact delivers_bootstrap (writes_organization service)

theorem delivers_bootstrapProject {service : ProjectMembershipService} {id : ProjectId}
    {subject : String} :
    Delivers (ProjectMembershipService.bootstrapOwner service id subject) (fun _ held' =>
      held' = afterProjectMembers (.insert ⟨id.asStr, subject, .owner⟩) held) held := by
  unfold ProjectMembershipService.bootstrapOwner
  split
  · exact ensures_throw trivial
  · exact delivers_bootstrap (writes_project service)

theorem delivers_createOrganization {input : CreateOrganizationInput} {now : ℕ} :
    Delivers (createOrganization principal input now) (fun organization held =>
      held (.organization organization.id.asStr) = some (.organization (some organization)) ∧
        held (.organizationMember organization.id.asStr principal.subject) =
          some (.organizationMember
            (some ⟨organization.id.asStr, principal.subject, .owner⟩))) held := by
  unfold createOrganization
  split
  · exact ensures_throw trivial
  apply delivers_checkInput
  intro id _
  apply delivers_checkInput
  intro timestamps _
  apply delivers_checkInput
  intro organization horganization
  obtain ⟨rfl, -⟩ := Organization.new_ok horganization
  apply delivers_read readOnly_openStore
  intro store
  apply delivers_bind (delivers_commit keepsParented_createOrganization fun change hplan =>
    (ControlPlaneState.createOrganization_ok hplan).1)
  intro created held' hheld
  apply delivers_read readOnly_openOrganizationMemberships
  intro memberships
  refine delivers_bind (delivers_handle delivers_bootstrapOrganization fun error held' =>
    delivers_rollBack keepsParented_deleteOrganization) fun _ held'' hheld' => ?_
  rw [hheld', hheld]
  refine ensures_pure ⟨?_, ?_⟩ <;> simp [afterStore, storeSets, afterOrganizationMembers, organizationMemberSets, memberSets]

theorem delivers_updateOrganization {id : OrganizationId} {input : UpdateOrganizationInput}
    {now : ℕ} : Delivers (updateOrganization principal id input now) (fun organization held =>
      held (.organization organization.id.asStr) = some (.organization (some organization)))
      held := by
  apply delivers_read readOnly_authorizeOrganization
  intro _
  apply delivers_read readOnly_openStore
  intro store
  apply delivers_read readOnly_found
  intro current
  apply delivers_read (readOnly_lift _)
  intro _
  apply delivers_checkInput
  intro timestamps _
  apply delivers_checkInput
  intro updated _
  apply delivers_bind (delivers_commit keepsParented_updateOrganization fun change hplan =>
    ControlPlaneState.updateOrganization_ok hplan)
  rintro _ _ rfl
  exact ensures_pure (by simp [afterStore, storeSets])

theorem delivers_deleteOrganization {id : OrganizationId} :
    Delivers (deleteOrganization principal id) (fun _ held =>
      held (.organization id.asStr) = some (.organization none)) held := by
  apply delivers_read readOnly_authorizeOrganization
  intro _
  apply delivers_read readOnly_openStore
  intro store
  apply delivers_read readOnly_found
  intro organization
  split
  · exact ensures_throw trivial
  apply delivers_bind (delivers_commit keepsParented_deleteOrganization fun change hplan =>
    (ControlPlaneState.deleteOrganization_ok hplan).1)
  rintro _ _ rfl
  apply delivers_read readOnly_openOrganizationMemberships
  intro memberships
  apply delivers_mapError
  refine delivers_mono (delivers_purge (writes_organization memberships)) fun _ held' hheld => ?_
  rcases hheld with rfl | rfl <;>
    simp [afterStore, storeSets, afterOrganizationMembers, organizationMemberSets]

theorem delivers_createProject {organizationId : OrganizationId} {input : CreateProjectInput}
    {now : ℕ} : Delivers (createProject principal organizationId input now) (fun project held =>
      held (.project project.id.asStr) = some (.project (some project)) ∧
        held (.projectMember project.id.asStr principal.subject) =
          some (.projectMember (some ⟨project.id.asStr, principal.subject, .owner⟩))) held := by
  apply delivers_read readOnly_authorizeOrganization
  intro _
  apply delivers_read readOnly_openStore
  intro store
  apply delivers_read readOnly_found
  intro organization
  split
  · exact ensures_throw trivial
  apply delivers_read (readOnly_lift _)
  intro id
  apply delivers_checkInput
  intro timestamps _
  apply delivers_checkInput
  intro project hproject
  obtain ⟨rfl, -⟩ := Project.new_ok hproject
  apply delivers_bind (delivers_commit keepsParented_createProject fun change hplan =>
    (ControlPlaneState.createProject_ok hplan).1)
  intro created held' hheld
  apply delivers_read readOnly_openProjectMemberships
  intro memberships
  refine delivers_bind (delivers_handle delivers_bootstrapProject fun error held' =>
    delivers_rollBack keepsParented_deleteProject) fun _ held'' hheld' => ?_
  rw [hheld', hheld]
  refine ensures_pure ⟨?_, ?_⟩ <;>
    simp [afterStore, storeSets, afterProjectMembers, projectMemberSets, memberSets]

theorem delivers_updateProject {id : ProjectId} {input : UpdateProjectInput} {now : ℕ} :
    Delivers (updateProject principal id input now) (fun project held =>
      held (.project project.id.asStr) = some (.project (some project))) held := by
  apply delivers_read readOnly_openStore
  intro store
  apply delivers_read readOnly_found
  intro current
  apply delivers_read readOnly_authorizeProjectManagement
  intro _
  apply delivers_read (readOnly_lift _)
  intro _
  apply delivers_checkInput
  intro timestamps _
  apply delivers_checkInput
  intro updated _
  apply delivers_bind (delivers_commit keepsParented_updateProject fun change hplan =>
    (ControlPlaneState.updateProject_ok hplan).1)
  rintro _ _ rfl
  exact ensures_pure (by simp [afterStore, storeSets])

theorem delivers_deleteProject {id : ProjectId} :
    Delivers (deleteProject principal id) (fun _ held =>
      held (.project id.asStr) = some (.project none)) held := by
  apply delivers_read readOnly_openStore
  intro store
  apply delivers_read readOnly_found
  intro project
  apply delivers_read readOnly_authorizeProjectManagement
  intro _
  split
  · exact ensures_throw trivial
  apply delivers_read readOnly_ensureNoCollections
  intro _
  apply delivers_bind (delivers_commit keepsParented_deleteProject fun change hplan =>
    ControlPlaneState.deleteProject_ok hplan)
  rintro _ _ rfl
  apply delivers_read readOnly_openProjectMemberships
  intro memberships
  apply delivers_mapError
  refine delivers_mono (delivers_purge (writes_project memberships)) fun _ held' hheld => ?_
  rcases hheld with rfl | rfl <;>
    simp [afterStore, storeSets, afterProjectMembers, projectMemberSets]

theorem delivers_upsertOrganizationMembership {id : OrganizationId} {subject : String}
    {role : OrganizationRole} :
    Delivers (upsertOrganizationMembership principal id subject role) (fun membership held =>
      held (.organizationMember id.asStr subject) =
        some (.organizationMember (some membership))) held := by
  apply delivers_read readOnly_openOrganizationMemberships
  intro service
  apply delivers_mapError
  apply delivers_mono (delivers_upsert (writes_organization service))
  rintro _ _ ⟨rfl, rfl⟩
  simp [afterOrganizationMembers, organizationMemberSets, memberSets]

theorem delivers_removeOrganizationMembership {id : OrganizationId} {subject : String} :
    Delivers (removeOrganizationMembership principal id subject) (fun _ held =>
      held (.organizationMember id.asStr subject) = some (.organizationMember none)) held := by
  apply delivers_read readOnly_openOrganizationMemberships
  intro service
  apply delivers_mapError
  apply delivers_mono (delivers_remove (writes_organization service))
  rintro _ _ rfl
  simp [afterOrganizationMembers, organizationMemberSets, memberSets]

theorem delivers_upsertProjectMembership {id : ProjectId} {subject : String} {role : ProjectRole} :
    Delivers (upsertProjectMembership principal id subject role) (fun membership held =>
      held (.projectMember id.asStr subject) = some (.projectMember (some membership))) held := by
  apply delivers_read readOnly_openProjectMemberships
  intro service
  refine delivers_handle (delivers_mono (delivers_upsert (writes_project service)) ?_)
    fun error held' => delivers_read readOnly_openStore fun _ => ensures_throw trivial
  rintro _ _ ⟨rfl, rfl⟩
  simp [afterProjectMembers, projectMemberSets, memberSets]

theorem delivers_removeProjectMembership {id : ProjectId} {subject : String} :
    Delivers (removeProjectMembership principal id subject) (fun _ held =>
      held (.projectMember id.asStr subject) = some (.projectMember none)) held := by
  apply delivers_read readOnly_openProjectMemberships
  intro service
  refine delivers_handle (delivers_mono (delivers_remove (writes_project service)) ?_)
    fun error held' => delivers_read readOnly_openStore fun _ => ensures_throw trivial
  rintro _ _ rfl
  simp [afterProjectMembers, projectMemberSets, memberSets]

/-- Every call sets what its success acknowledges. -/
theorem delivers_task (call : Call) :
    layout.Ensures Parented Pool.delivers call.task fun _ => none := by
  cases call with
  | createOrganization principal input now =>
    refine delivers_bind delivers_createOrganization fun organization held hheld => ?_
    exact ensures_pure (by simpa using hheld)
  | updateOrganization principal id input now =>
    refine delivers_bind delivers_updateOrganization fun organization held hheld => ?_
    exact ensures_pure (List.forall_mem_singleton.mpr hheld)
  | deleteOrganization principal id =>
    refine delivers_bind delivers_deleteOrganization fun _ held hheld => ?_
    exact ensures_pure (List.forall_mem_singleton.mpr hheld)
  | createProject principal organizationId input now =>
    refine delivers_bind delivers_createProject fun project held hheld => ?_
    exact ensures_pure (by simpa using hheld)
  | updateProject principal id input now =>
    refine delivers_bind delivers_updateProject fun project held hheld => ?_
    exact ensures_pure (List.forall_mem_singleton.mpr hheld)
  | deleteProject principal id =>
    refine delivers_bind delivers_deleteProject fun _ held hheld => ?_
    exact ensures_pure (List.forall_mem_singleton.mpr hheld)
  | upsertOrganizationMembership principal id subject role =>
    refine delivers_bind delivers_upsertOrganizationMembership fun membership held hheld => ?_
    exact ensures_pure (List.forall_mem_singleton.mpr hheld)
  | removeOrganizationMembership principal id subject =>
    refine delivers_bind delivers_removeOrganizationMembership fun _ held hheld => ?_
    exact ensures_pure (List.forall_mem_singleton.mpr hheld)
  | upsertProjectMembership principal id subject role =>
    refine delivers_bind delivers_upsertProjectMembership fun membership held hheld => ?_
    exact ensures_pure (List.forall_mem_singleton.mpr hheld)
  | removeProjectMembership principal id subject =>
    refine delivers_bind delivers_removeProjectMembership fun _ held hheld => ?_
    exact ensures_pure (List.forall_mem_singleton.mpr hheld)

end Calls

/-! ### Runs of concurrent calls -/

abbrev ControlPlanePool := Pool Content Change Item ItemValue ControlPlaneApiError

abbrev step (pool : ControlPlanePool) (event : Event Call) : ControlPlanePool :=
  pool.step layout Call.task event

/-- In every run in which each write meets its file as the instance read it, and
changes nothing that an overlapping call has set, every acknowledged change stays
in effect and every project keeps its organization. -/
theorem updates_kept {files : Files} {pool : ControlPlanePool} (hfiles : Parented files)
    (hrun : Reaches step (Pool.Guarded layout) (Pool.opened files) pool) :
    pool.Kept layout ∧ Parented pool.files :=
  Pool.kept_of_guarded hfiles delivers_task hrun

section Sample

def ownerPrincipal : Principal := ⟨"owner", .credential, none, none⟩

def createA : Call := .createOrganization ownerPrincipal ⟨"org-a", "A", "a"⟩ 0

def createB : Call := .createOrganization ownerPrincipal ⟨"org-b", "B", "b"⟩ 0

def organizationA : Organization :=
  ⟨⟨"org-a", by decide⟩, ⟨"A", validateName_A⟩, ⟨"a", by decide⟩, .active, .epoch⟩

/-- The first call to its acknowledgement. -/
def aloneEvents : List (Event Call) :=
  .start createA :: List.replicate 6 (.advance 0 .written)

/-- The second call reads the store before the first one writes it, and writes it
after the first one was acknowledged. -/
def overlappingEvents : List (Event Call) :=
  [.start createA, .start createB, .advance 0 .written] ++
    List.replicate 6 (.advance 1 .written) ++ [.advance 0 .written]

def alone (count : ℕ) : ControlPlanePool :=
  (aloneEvents.take count).foldl step (Pool.opened Files.empty)

theorem parented_empty : Parented Files.empty := by
  intro key project hproject
  exact absurd hproject (by simp [Files.empty, ControlPlaneState.default])

/-- A single call is guarded when it writes the file as it stands. -/
theorem guarded_single {pool : ControlPlanePool} {started : ℕ} {held : Held Item ItemValue}
    {task : ApiTask ControlPlaneApiError (List (Item × ItemValue))}
    (hrunning : pool.running = [⟨started, task, held⟩]) (hnone : pool.acknowledged = [])
    (htask : ∀ file seen change next, task = .persist file seen change next →
      pool.files file = seen) :
    pool.Guarded layout (.advance 0 .written : Event Call) := by
  intro _ call file seen change next hcall hpersist
  rw [hrunning] at hcall
  cases hcall
  refine ⟨htask file seen change next hpersist, fun item value _ _ => ?_⟩
  refine ⟨fun acknowledged hacknowledged => ?_, fun other running hother hne => ?_⟩
  · rw [hnone] at hacknowledged
    cases hacknowledged
  · rw [hrunning] at hother
    obtain ⟨other, rfl⟩ := Nat.exists_eq_succ_of_ne_zero hne
    cases hother

/-- What a call is about to do when it writes its file as it stands. -/
inductive Meets (pool : ControlPlanePool) :
    ApiTask ControlPlaneApiError (List (Item × ItemValue)) → Prop
  | read (file : File) (next : Content file → _) : Meets pool (.read file next)
  | persist (file : File) (change : Change file) (next : Bool → _) :
      Meets pool (.persist file (pool.files file) change next)
  | done (result : Except ControlPlaneApiError (List (Item × ItemValue))) :
      Meets pool (.done result)

/-- A call that runs alone goes one step further. -/
theorem reaches_single {pool : ControlPlanePool} {started : ℕ} {held : Held Item ItemValue}
    {task : ApiTask ControlPlaneApiError (List (Item × ItemValue))}
    (hrun : Reaches step (Pool.Guarded layout) (Pool.opened Files.empty) pool)
    (hrunning : pool.running = [⟨started, task, held⟩]) (hnone : pool.acknowledged = [])
    (hmeets : Meets pool task) :
    Reaches step (Pool.Guarded layout) (Pool.opened Files.empty)
      (step pool (.advance 0 .written)) := by
  refine hrun.tail _ (guarded_single hrunning hnone fun file seen change next htask => ?_)
  cases hmeets with
  | read | done => cases htask
  | persist =>
    cases htask
    rfl

theorem reaches_alone :
    Reaches step (Pool.Guarded layout) (Pool.opened Files.empty) (alone 7) := by
  have hstart : Reaches step (Pool.Guarded layout) (Pool.opened Files.empty)
      (step (Pool.opened Files.empty) (.start createA)) := (Reaches.refl _).tail _ trivial
  have h2 := reaches_single hstart rfl rfl (.read .store _)
  have h3 := reaches_single h2 rfl rfl (.persist .store _ _)
  have h4 := reaches_single h3 rfl rfl (.read .store _)
  have h5 := reaches_single h4 rfl rfl (.read .organizationMembers _)
  have h6 := reaches_single h5 rfl rfl (.persist .organizationMembers _ _)
  exact reaches_single h6 rfl rfl (.done _)

theorem updates_kept_sample : (alone 7).Kept layout ∧ Parented (alone 7).files :=
  updates_kept parented_empty reaches_alone

/-- The organization whose creation was acknowledged is not in the store. -/
theorem not_kept_overlapping : ∃ pool : ControlPlanePool,
    Reaches step (fun _ _ => True) (Pool.opened Files.empty) pool ∧ ¬pool.Kept layout := by
  refine ⟨overlappingEvents.foldl step (Pool.opened Files.empty), Reaches.foldl _ _, fun hkept => ?_⟩
  set pool := overlappingEvents.foldl step (Pool.opened Files.empty)
  have hacknowledged : pool.acknowledged = [⟨8, [(.organization "org-a",
      .organization (some organizationA)), (.organizationMember "org-a" "owner",
        .organizationMember (some ⟨"org-a", "owner", .owner⟩))]⟩] := rfl
  have hmissing : itemValue pool.files (.organization "org-a") = .organization none := rfl
  have hstarted : pool.writes.map Write.started = [1, 0, 0] := rfl
  rcases hkept _ (hacknowledged ▸ List.mem_singleton.mpr rfl) _ (List.mem_cons_self ..) with
    hvalue | ⟨write, hwrite, hlater, -⟩
  · exact absurd (hmissing.symm.trans hvalue) (by decide)
  · have hlater : 8 < write.started := hlater
    have hmem := List.mem_map_of_mem (f := Write.started) hwrite
    rw [hstarted] at hmem
    simp only [List.mem_cons, List.not_mem_nil, or_false] at hmem
    omega

end Sample

end Ketebe.ControlPlane
