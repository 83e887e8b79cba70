import Ketebe.ControlPlaneUpdates
import Ketebe.Lib.SequentialTasks

/-!
Owners. An organization or project that a call creates gets its owner with a second
write, and loses its members with the second write of its deletion. No call leaves
one without an owner, unless a creation stops between its writes.
-/
namespace Ketebe

open Lib.ByteCodec Lib.WholeFiles Lib.WholeFiles.Task

/-! ### Owners of a resource -/

namespace MembershipFile

theorem version_apply {Role : Type} (file : MembershipFile Role) (change : MembershipChange Role) :
    (file.apply change).version = file.version := by
  cases change <;> rfl

variable {Role : Type} [MembershipRole Role] {file : MembershipFile Role}
  {resourceId subject : String} {membership : Membership Role} {role : Role}

def Owned (file : MembershipFile Role) (resourceId : String) : Prop :=
  ∃ (subject : String) (membership : Membership Role),
    (file.members resourceId)[subject]? = some membership ∧
      membership.role = MembershipRole.owner

/-- Of several entries with distinct keys one has another key. -/
theorem exists_key_ne {Value : Type} {entries : List (String × Value)} (key : String)
    (hdistinct : entries.Pairwise fun a b => ¬compare a.1 b.1 = .eq)
    (hlength : 2 ≤ entries.length) : ∃ entry ∈ entries, entry.1 ≠ key := by
  match entries with
  | [] | [_] => simp at hlength
  | first :: second :: rest =>
    by_cases hfirst : first.1 = key
    · refine ⟨second, by simp, fun hsecond => ?_⟩
      have hne := (List.pairwise_cons.mp hdistinct).1 second (by simp)
      exact hne (compare_eq_iff_eq.mpr (hfirst.trans hsecond.symm))
    · exact ⟨first, by simp, hfirst⟩

/-- An owner that is not the only one leaves another one. -/
theorem exists_other_owner {members : MemberTable Role}
    (hmember : members[subject]? = some membership) (howner : membership.role = MembershipRole.owner)
    (hcount : ownerCount members ≠ 1) : ∃ (other : String) (owner : Membership Role),
      other ≠ subject ∧ members[other]? = some owner ∧ owner.role = MembershipRole.owner := by
  let owners := members.toList.filter fun entry => entry.2.role = MembershipRole.owner
  have hmem {entry : String × Membership Role} : entry ∈ owners ↔
      members[entry.1]? = some entry.2 ∧ entry.2.role = MembershipRole.owner := by
    simp only [owners, List.mem_filter, decide_eq_true_eq,
      ← Std.ExtTreeMap.mem_toList_iff_getElem?_eq_some]
  have hsubject : (subject, membership) ∈ owners := hmem.mpr ⟨hmember, howner⟩
  have hpositive := List.length_pos_of_mem hsubject
  have hlength : 2 ≤ owners.length := by
    have hcount : owners.length ≠ 1 := hcount
    omega
  obtain ⟨entry, hentry, hne⟩ :=
    exists_key_ne subject (Std.ExtTreeMap.distinct_keys_toList.filter _) hlength
  exact ⟨entry.1, entry.2, hne, hmem.mp hentry⟩

theorem owned_insert_owner {id : String} (hrole : membership.role = MembershipRole.owner)
    (h : membership.resourceId = id ∨ file.Owned id) :
    (file.apply (.insert membership)).Owned id := by
  by_cases hid : membership.resourceId = id
  · refine ⟨membership.subject, membership, ?_, hrole⟩
    rw [members_insert, if_pos ⟨hid, rfl⟩]
  · obtain ⟨owner, owned, howner, hrole⟩ := h.resolve_left hid
    refine ⟨owner, owned, ?_, hrole⟩
    rw [members_insert, if_neg (fun hsame => hid hsame.1), howner]

theorem owned_createMembership (hplan : file.createMembership resourceId subject role =
    .ok membership) {id : String} (h : file.Owned id) :
    (file.apply (.insert membership)).Owned id := by
  obtain ⟨owner, owned, howner, hrole⟩ := h
  refine ⟨owner, owned, ?_, hrole⟩
  rw [members_insert, if_neg, howner]
  rintro ⟨rfl, rfl⟩
  obtain ⟨created, hnew, hplan⟩ := except_bind_ok.mp hplan
  split at hplan
  · cases hplan
  · rename_i habsent
    cases hplan
    rw [Membership.new_ok hnew] at howner
    exact habsent (Std.ExtTreeMap.mem_iff_isSome_getElem?.mpr (Option.isSome_of_eq_some howner))

theorem owned_updateRole (hplan : file.updateRole resourceId subject role = .ok membership)
    {id : String} (h : file.Owned id) : (file.apply (.insert membership)).Owned id := by
  have hmembership := updateRole_ok hplan
  obtain ⟨owner, owned, howner, hrole⟩ := h
  by_cases hsame : resourceId = id ∧ subject = owner
  · obtain ⟨rfl, rfl⟩ := hsame
    by_cases hkept : role = MembershipRole.owner
    · exact owned_insert_owner (by rw [hmembership, hkept]) (.inl (by rw [hmembership]))
    · have hcount : ownerCount (file.members resourceId) ≠ 1 := by
        intro hone
        rw [updateRole, howner] at hplan
        simp only [hrole, hkept, hone, ne_eq, not_false_iff, true_and, if_true] at hplan
        cases hplan
      obtain ⟨other, owner, hne, hother, howner⟩ := exists_other_owner howner hrole hcount
      refine ⟨other, owner, ?_, howner⟩
      rw [members_insert, if_neg, hother]
      rw [hmembership]
      exact fun hsame => hne hsame.2.symm
  · refine ⟨owner, owned, ?_, hrole⟩
    rw [members_insert, if_neg, howner]
    rwa [hmembership]

theorem owned_removeMembership (hplan : file.removeMembership resourceId subject = .ok membership)
    {id : String} (h : file.Owned id) : (file.apply (.remove resourceId subject)).Owned id := by
  obtain ⟨owner, owned, howner, hrole⟩ := h
  by_cases hsame : resourceId = id ∧ subject = owner
  · obtain ⟨rfl, rfl⟩ := hsame
    have hcount : ownerCount (file.members resourceId) ≠ 1 := by
      intro hone
      rw [removeMembership, howner] at hplan
      simp only [hrole, hone, and_self, if_true] at hplan
      cases hplan
    obtain ⟨other, owner, hne, hother, howner⟩ := exists_other_owner howner hrole hcount
    refine ⟨other, owner, ?_, howner⟩
    rw [members_remove, if_neg, hother]
    exact fun hsame => hne hsame.2.symm
  · refine ⟨owner, owned, ?_, hrole⟩
    rw [members_remove, if_neg hsame, howner]

theorem owned_purge {id : String} (hne : resourceId ≠ id) (h : file.Owned id) :
    (file.apply (.purge resourceId)).Owned id := by
  obtain ⟨owner, owned, howner, hrole⟩ := h
  exact ⟨owner, owned, by rw [members_purge, if_neg hne, howner], hrole⟩

/-- The first owner of a resource is its only member. -/
theorem isEmpty_of_bootstrapOwner (hplan : file.bootstrapOwner resourceId subject =
    .ok membership) : (file.members resourceId).isEmpty := by
  unfold bootstrapOwner at hplan
  split at hplan
  · assumption
  · cases hplan

end MembershipFile

theorem OrganizationId.asStr_of_new {value : String} {id : OrganizationId}
    (h : OrganizationId.new value = .ok id) : id.asStr = value := by
  unfold OrganizationId.new at h
  split at h
  · cases h
    rfl
  · cases h

theorem ProjectId.asStr_of_new {value : String} {id : ProjectId} (h : ProjectId.new value = .ok id) :
    id.asStr = value := by
  unfold ProjectId.new at h
  split at h
  · cases h
    rfl
  · cases h

namespace ControlPlaneState

variable {state : ControlPlaneState} {change : ControlPlaneChange}

theorem mem_of_updateOrganization {organization : Organization}
    (h : state.updateOrganization organization = .ok change) :
    organization.id.asStr ∈ state.organizations := by
  unfold updateOrganization at h
  split at h
  · cases h
  · rename_i hnew
    exact not_not.mp hnew

theorem mem_of_updateProject {project : Project} (h : state.updateProject project = .ok change) :
    project.id.asStr ∈ state.projects := by
  unfold updateProject at h
  split at h
  · cases h
  · rename_i hproject
    exact Std.ExtTreeMap.mem_iff_isSome_getElem?.mpr (Option.isSome_of_eq_some hproject)

/-- Erasing a new key restores a map. -/
theorem erase_insert {Value : Type} {map : Std.ExtTreeMap String Value compare} {key : String}
    {value : Value} (h : key ∉ map) : (map.insert key value).erase key = map := by
  apply Std.ExtTreeMap.ext_getElem?
  intro other
  rw [Std.ExtTreeMap.getElem?_erase, Std.ExtTreeMap.getElem?_insert]
  split
  · rename_i hkey
    rw [compare_eq_iff_eq.mp hkey] at h
    exact (Std.ExtTreeMap.getElem?_eq_none h).symm
  · rfl

/-- Undoing the creation of a project restores the state. -/
theorem removeProject_withProject {project : Project} (h : project.id.asStr ∉ state.projects) :
    (state.withProject project).apply (.removeProject project.id) = state :=
  congrArg (ControlPlaneState.mk state.organizations) (erase_insert h)

/-- Undoing the creation of an organization restores the state. -/
theorem removeOrganization_withOrganization {organization : Organization}
    (h : organization.id.asStr ∉ state.organizations) :
    (state.withOrganization organization).apply (.removeOrganization organization.id) = state :=
  congrArg (ControlPlaneState.mk · state.projects) (erase_insert h)

/-- A new organization can be deleted as long as no project refers to it. -/
theorem deleteOrganization_withOrganization {organization : Organization} (h : state.Parented)
    (hnew : organization.id.asStr ∉ state.organizations) :
    (state.withOrganization organization).deleteOrganization organization.id =
      .ok (.removeOrganization organization.id) := by
  have hmem : organization.id.asStr ∈ (state.withOrganization organization).organizations :=
    Std.ExtTreeMap.mem_insert_self
  rw [deleteOrganization, if_neg, if_pos hmem]
  simp only [List.any_eq_true, decide_eq_true_eq, Prod.exists]
  rintro ⟨key, project, hproject, hsame⟩
  have hproject := Std.ExtTreeMap.mem_toList_iff_getElem?_eq_some.mp hproject
  exact hnew (hsame ▸ h key project hproject)

end ControlPlaneState

namespace ControlPlane

/-! ### Sound files -/

/-- The stored projects have their organizations, and both have owners. -/
structure Sound (store : ControlPlaneState)
    (organizationMembers : MembershipFile OrganizationRole)
    (projectMembers : MembershipFile ProjectRole) : Prop where
  parented : store.Parented
  organizationVersion : organizationMembers.version = membershipVersion
  projectVersion : projectMembers.version = membershipVersion
  organizations : ∀ id ∈ store.organizations, organizationMembers.Owned id
  projects : ∀ id ∈ store.projects, projectMembers.Owned id

section Sound

variable {store : ControlPlaneState} {organizationMembers : MembershipFile OrganizationRole}
  {projectMembers : MembershipFile ProjectRole}

theorem Sound.shrink {after : ControlPlaneState}
    (h : Sound store organizationMembers projectMembers) (hparented : after.Parented)
    (horganizations : ∀ id ∈ after.organizations, id ∈ store.organizations)
    (hprojects : ∀ id ∈ after.projects, id ∈ store.projects) :
    Sound after organizationMembers projectMembers :=
  ⟨hparented, h.organizationVersion, h.projectVersion,
    fun id hid => h.organizations id (horganizations id hid),
    fun id hid => h.projects id (hprojects id hid)⟩

theorem Sound.changeOrganizationMembers (h : Sound store organizationMembers projectMembers)
    (change : MembershipChange OrganizationRole)
    (howned : ∀ id ∈ store.organizations, organizationMembers.Owned id →
      (organizationMembers.apply change).Owned id) :
    Sound store (organizationMembers.apply change) projectMembers :=
  ⟨h.parented, (MembershipFile.version_apply _ change).trans h.organizationVersion,
    h.projectVersion, fun id hid => howned id hid (h.organizations id hid), h.projects⟩

theorem Sound.changeProjectMembers (h : Sound store organizationMembers projectMembers)
    (change : MembershipChange ProjectRole)
    (howned : ∀ id ∈ store.projects, projectMembers.Owned id →
      (projectMembers.apply change).Owned id) :
    Sound store organizationMembers (projectMembers.apply change) :=
  ⟨h.parented, h.organizationVersion, (MembershipFile.version_apply _ change).trans
    h.projectVersion, h.organizations, fun id hid => howned id hid (h.projects id hid)⟩

theorem Sound.createOrganization {organization : Organization} {subject : String}
    (h : Sound store organizationMembers projectMembers) :
    Sound (store.withOrganization organization)
      (organizationMembers.apply (.insert ⟨organization.id.asStr, subject, .owner⟩))
      projectMembers := by
  refine ⟨h.parented.withOrganization organization,
    (MembershipFile.version_apply _ _).trans h.organizationVersion, h.projectVersion,
    fun id hid => MembershipFile.owned_insert_owner rfl ?_, h.projects⟩
  rcases Std.ExtTreeMap.mem_insert.mp hid with hsame | hid
  · exact .inl (compare_eq_iff_eq.mp hsame)
  · exact .inr (h.organizations id hid)

theorem Sound.createProject {project : Project} {subject : String}
    (h : Sound store organizationMembers projectMembers)
    (hparent : project.organizationId.asStr ∈ store.organizations) :
    Sound (store.withProject project) organizationMembers
      (projectMembers.apply (.insert ⟨project.id.asStr, subject, .owner⟩)) := by
  refine ⟨h.parented.withProject hparent, h.organizationVersion,
    (MembershipFile.version_apply _ _).trans h.projectVersion, h.organizations,
    fun id hid => MembershipFile.owned_insert_owner rfl ?_⟩
  rcases Std.ExtTreeMap.mem_insert.mp hid with hsame | hid
  · exact .inl (compare_eq_iff_eq.mp hsame)
  · exact .inr (h.projects id hid)

end Sound

def Sane (files : Files) : Prop :=
  Sound (files .store) (files .organizationMembers) (files .projectMembers)

/-- What a call may leave behind: only the project that it creates is new, and
that one had no members. -/
structure Leaves (created : Option String) (before after : Files) : Prop where
  sane : Sane after
  projects : ∀ id ∈ (after .store).projects, id ∈ (before .store).projects ∨
    created = some id ∧ ((before .projectMembers).members id).isEmpty

theorem Leaves.refl {created : Option String} {files : Files} (h : Sane files) :
    Leaves created files files :=
  ⟨h, fun _ hid => .inl hid⟩

/-- A call that was not stopped leaves the files so, whatever its result. -/
abbrev leaving (created : Option String) (before : Files) {ε α : Type} : Ending Content ε α :=
  ⟨fun _ _ after => Leaves created before after, fun _ _ after => Leaves created before after⟩

/-! ### Steps of a call -/

section Steps

variable {ε ε' α β : Type} {stopped : ℕ → Files → Prop} {ending : Ending Content ε β}
  {task : ApiTask ε α} {next : α → ApiTask ε β} {count : ℕ} {files : Files}

theorem ends_read (h : task.ReadOnly) (hnext : ∀ value, Ends applyChange stopped ending (next value)
      count files) (herror : ∀ error, ending.error error count files) :
    Ends applyChange stopped ending (task >>= next) count files :=
  ends_bind (h.ends hnext herror)

theorem ends_lift_bind {result : Except ε α} (hnext : ∀ value, result = .ok value →
      Ends applyChange stopped ending (next value) count files)
    (herror : ∀ error, ending.error error count files) :
    Ends applyChange stopped ending (lift result >>= next) count files :=
  ends_bind (ends_lift hnext fun error _ => herror error)

theorem ends_openStore {next : ControlPlaneState → ApiTask ε β}
    (h : Ends applyChange stopped ending (next (files .store)) count files) :
    Ends applyChange stopped ending (openStore >>= next) count files := h

theorem ends_found {ending : Ending Content ControlPlaneApiError β} {value : Option α}
    {next : α → ApiTask ControlPlaneApiError β}
    (hnext : ∀ present, value = some present →
      Ends applyChange stopped ending (next present) count files)
    (herror : ∀ error, ending.error error count files) :
    Ends applyChange stopped ending (found value >>= next) count files := by
  cases value with
  | none => exact herror .undiscoverable
  | some present => exact hnext present rfl

theorem ends_checkInput {ending : Ending Content ControlPlaneApiError β}
    {result : Except ControlPlaneDomainError α} {next : α → ApiTask ControlPlaneApiError β}
    (hnext : ∀ value, result = .ok value →
      Ends applyChange stopped ending (next value) count files)
    (herror : ∀ error, ending.error error count files) :
    Ends applyChange stopped ending (checkInput result >>= next) count files :=
  ends_lift_bind (fun value h => hnext value (mapError_ok_iff.mp h)) herror

theorem ends_commit {store : ControlPlaneState} {f : ControlPlaneStoreError → ε}
    {plan : Except ControlPlaneStoreError ControlPlaneChange}
    {next : ControlPlaneState → ApiTask ε β} (hstopped : stopped count files)
    (hnext : ∀ change, plan = .ok change → Ends applyChange stopped ending
      (next (store.apply change)) (count + 1) (Function.update files .store (store.apply change)))
    (herror : ∀ error, ending.error error count files) :
    Ends applyChange stopped ending ((commit store plan).mapError f >>= next) count files := by
  apply ends_bind
  apply ends_mapError
  exact ends_lift_bind (fun change hplan => ⟨hstopped, hnext change hplan⟩) fun _ => herror _

theorem ends_rollBack {ending : Ending Content ControlPlaneApiError β} {store : ControlPlaneState}
    {plan : Except ControlPlaneStoreError ControlPlaneChange} {change : ControlPlaneChange}
    {error : ControlPlaneApiError} (hplan : plan = .ok change) (hstopped : stopped count files)
    (hend : ending.error error (count + 1)
      (Function.update files .store (store.apply change))) :
    Ends applyChange stopped ending (rollBack store plan error) count files := by
  subst hplan
  exact ⟨hstopped, hend⟩

theorem ends_openOrganizationMemberships {ending : Ending Content ControlPlaneApiError β}
    {next : OrganizationMembershipService → ApiTask ControlPlaneApiError β}
    (hversion : (files .organizationMembers).version = membershipVersion)
    (h : Ends applyChange stopped ending (next ⟨files .store, files .organizationMembers⟩)
      count files) :
    Ends applyChange stopped ending (openOrganizationMemberships >>= next) count files := by
  have hopen : (files .organizationMembers).openFile = .ok (files .organizationMembers) :=
    if_neg (not_not.mpr hversion)
  apply ends_bind
  apply ends_openStore
  show Ends applyChange stopped _ (lift ((files .organizationMembers).openFile.mapError
    ControlPlaneApiError.organizationMembership) >>= _) count files
  rw [hopen]
  exact h

theorem ends_openProjectMemberships {ending : Ending Content ControlPlaneApiError β}
    {next : ProjectMembershipService → ApiTask ControlPlaneApiError β}
    (hversion : (files .projectMembers).version = membershipVersion)
    (h : Ends applyChange stopped ending (next ⟨files .store, files .projectMembers⟩)
      count files) :
    Ends applyChange stopped ending (openProjectMemberships >>= next) count files := by
  have hopen : (files .projectMembers).openFile = .ok (files .projectMembers) :=
    if_neg (not_not.mpr hversion)
  apply ends_bind
  apply ends_openStore
  show Ends applyChange stopped _ (lift ((files .projectMembers).openFile.mapError
    ControlPlaneApiError.projectMembership) >>= _) count files
  rw [hopen]
  exact h

theorem ends_bootstrapOrganization {ending : Ending Content MembershipError Unit}
    {service : OrganizationMembershipService} {id : OrganizationId} {subject : String}
    (hstopped : stopped count files)
    (hok : ∀ membership, service.state.bootstrapOwner id.asStr subject = .ok membership →
      ending.ok () (count + 1) (Function.update files .organizationMembers
        (service.state.apply (.insert membership))))
    (herror : ∀ error, ending.error error count files) : Ends applyChange stopped ending
      (OrganizationMembershipService.bootstrapOwner service id subject) count files := by
  unfold OrganizationMembershipService.bootstrapOwner
  split
  · exact herror .resourceNotFound
  split
  · exact herror .invalidSubject
  exact ends_lift_bind (fun membership h => ⟨hstopped, hok membership h⟩) herror

theorem ends_bootstrapProject {ending : Ending Content MembershipError Unit}
    {service : ProjectMembershipService} {id : ProjectId} {subject : String}
    (hstopped : stopped count files)
    (hok : ∀ membership, service.state.bootstrapOwner id.asStr subject = .ok membership →
      ending.ok () (count + 1) (Function.update files .projectMembers
        (service.state.apply (.insert membership))))
    (herror : ∀ error, ending.error error count files) : Ends applyChange stopped ending
      (ProjectMembershipService.bootstrapOwner service id subject) count files := by
  unfold ProjectMembershipService.bootstrapOwner
  split
  · exact herror .resourceNotFound
  exact ends_lift_bind (fun membership h => ⟨hstopped, hok membership h⟩) herror

section Services

variable {Role : Type} {service : MembershipService Role}
  {persist : MembershipChange Role → ApiTask MembershipError Unit}
  {authorized : Except MembershipError Unit} {resourceId subject : String} {role : Role}

theorem ends_purge {ending : Ending Content MembershipError Unit}
    (hpurge : Ends applyChange stopped ending (persist (.purge resourceId)) count files)
    (hsame : ending.ok () count files) :
    Ends applyChange stopped ending (service.purge persist resourceId) count files := by
  unfold MembershipService.purge
  split
  · exact hpurge
  · exact hsame

variable [MembershipRole Role]

theorem ends_upsert {ending : Ending Content MembershipError (Membership Role)}
    {reads : Except MembershipError Unit}
    (hinsert : ∀ membership, service.state.createMembership resourceId subject role =
        .ok membership ∨ service.state.updateRole resourceId subject role = .ok membership →
      Ends applyChange stopped ⟨fun _ => ending.ok membership, ending.error⟩
        (persist (.insert membership)) count files)
    (herror : ∀ error, ending.error error count files) : Ends applyChange stopped ending
      (service.upsert persist authorized resourceId subject reads role) count files := by
  unfold MembershipService.upsert
  split
  · refine ends_lift_bind (fun _ _ => ?_) herror
    exact ends_lift_bind (fun membership h => ends_bind (hinsert membership (.inr h))) herror
  · refine ends_lift_bind (fun _ _ => ?_) herror
    exact ends_lift_bind (fun membership h => ends_bind (hinsert membership (.inl h))) herror
  · exact herror _

theorem ends_remove {ending : Ending Content MembershipError Unit}
    (hremove : ∀ membership, service.state.removeMembership resourceId subject = .ok membership →
      Ends applyChange stopped ending (persist (.remove resourceId subject)) count files)
    (herror : ∀ error, ending.error error count files) : Ends applyChange stopped ending
      (service.remove persist authorized resourceId subject) count files := by
  refine ends_lift_bind (fun _ _ => ?_) herror
  exact ends_lift_bind hremove herror

end Services

end Steps

/-! ### Calls -/

section Calls

variable {principal : Principal} {files : Files}

theorem ends_createOrganization {input : CreateOrganizationInput} {now : ℕ} (hsane : Sane files) :
    Ends applyChange (fun made after => made = 1 ∨ Leaves none files after)
      (leaving none files) (createOrganization principal input now) 0 files := by
  have hsame : Leaves none files files := .refl hsane
  unfold createOrganization
  split
  · exact hsame
  refine ends_checkInput (fun id _ => ?_) fun _ => hsame
  refine ends_checkInput (fun timestamps _ => ?_) fun _ => hsame
  refine ends_checkInput (fun organization horganization => ?_) fun _ => hsame
  apply ends_openStore
  refine ends_commit (.inr hsame) (fun change hplan => ?_) fun _ => hsame
  obtain ⟨rfl, hnew⟩ := ControlPlaneState.createOrganization_ok hplan
  obtain ⟨rfl, -⟩ := Organization.new_ok horganization
  apply ends_openOrganizationMemberships
  · exact hsane.organizationVersion
  apply ends_bind
  apply ends_handle
  apply ends_bootstrapOrganization
  · exact .inl rfl
  · intro membership hmembership
    rw [MembershipFile.bootstrapOwner_ok hmembership]
    exact ⟨hsane.createOrganization, fun _ hid => .inl hid⟩
  · intro error
    refine ends_rollBack (ControlPlaneState.deleteOrganization_withOrganization hsane.parented hnew)
      (.inl rfl) ?_
    have hrestored : ((files .store).apply (.insertOrganization organization)).apply
        (.removeOrganization organization.id) = files .store :=
      ControlPlaneState.removeOrganization_withOrganization hnew
    show Leaves none files (Function.update _ _ _)
    rw [hrestored, Function.update_idem, Function.update_eq_self]
    exact hsame

theorem ends_createProject {organizationId : OrganizationId} {input : CreateProjectInput} {now : ℕ}
    (hsane : Sane files) :
    Ends applyChange (fun made after => made = 1 ∨ Leaves (some input.id) files after)
      (leaving (some input.id) files) (createProject principal organizationId input now) 0
      files := by
  have hsame : Leaves (some input.id) files files := .refl hsane
  refine ends_read readOnly_authorizeOrganization (fun _ => ?_) fun _ => hsame
  apply ends_openStore
  refine ends_found (fun organization _ => ?_) fun _ => hsame
  split
  · exact hsame
  refine ends_lift_bind (fun id hid => ?_) fun _ => hsame
  refine ends_checkInput (fun timestamps _ => ?_) fun _ => hsame
  refine ends_checkInput (fun project hproject => ?_) fun _ => hsame
  refine ends_commit (.inr hsame) (fun change hplan => ?_) fun _ => hsame
  obtain ⟨rfl, hnew, hparent⟩ := ControlPlaneState.createProject_ok hplan
  obtain ⟨rfl, -⟩ := Project.new_ok hproject
  apply ends_openProjectMemberships
  · exact hsane.projectVersion
  apply ends_bind
  apply ends_handle
  apply ends_bootstrapProject
  · exact .inl rfl
  · intro membership hmembership
    have hempty := MembershipFile.isEmpty_of_bootstrapOwner hmembership
    rw [MembershipFile.bootstrapOwner_ok hmembership]
    refine ⟨hsane.createProject hparent, fun key hkey => ?_⟩
    rcases Std.ExtTreeMap.mem_insert.mp hkey with hkey | hkey
    · have hkey := compare_eq_iff_eq.mp hkey
      subst hkey
      exact .inr ⟨congrArg some (ProjectId.asStr_of_new (mapError_ok_iff.mp hid)).symm, hempty⟩
    · exact .inl hkey
  · intro error
    refine ends_rollBack (if_pos Std.ExtTreeMap.mem_insert_self) (.inl rfl) ?_
    have hrestored : ((files .store).apply (.insertProject project)).apply
        (.removeProject project.id) = files .store :=
      ControlPlaneState.removeProject_withProject hnew
    show Leaves _ files (Function.update _ _ _)
    rw [hrestored, Function.update_idem, Function.update_eq_self]
    exact hsame

theorem ends_updateOrganization {id : OrganizationId} {input : UpdateOrganizationInput} {now : ℕ}
    (hsane : Sane files) : Ends applyChange (fun _ => Leaves none files)
      (leaving none files) (updateOrganization principal id input now) 0 files := by
  have hsame : Leaves none files files := .refl hsane
  refine ends_read readOnly_authorizeOrganization (fun _ => ?_) fun _ => hsame
  apply ends_openStore
  refine ends_found (fun current _ => ?_) fun _ => hsame
  refine ends_lift_bind (fun _ _ => ?_) fun _ => hsame
  refine ends_checkInput (fun timestamps _ => ?_) fun _ => hsame
  refine ends_checkInput (fun updated _ => ?_) fun _ => hsame
  refine ends_commit hsame (fun change hplan => ?_) fun _ => hsame
  have hmem := ControlPlaneState.mem_of_updateOrganization hplan
  rw [ControlPlaneState.updateOrganization_ok hplan]
  refine ⟨hsane.shrink (hsane.parented.withOrganization updated) (fun key hkey => ?_)
    fun _ hkey => hkey, fun _ hkey => .inl hkey⟩
  rcases Std.ExtTreeMap.mem_insert.mp hkey with hkey | hkey
  · rwa [← compare_eq_iff_eq.mp hkey]
  · exact hkey

theorem ends_updateProject {id : ProjectId} {input : UpdateProjectInput} {now : ℕ}
    (hsane : Sane files) : Ends applyChange (fun _ => Leaves none files)
      (leaving none files) (updateProject principal id input now) 0 files := by
  have hsame : Leaves none files files := .refl hsane
  apply ends_openStore
  refine ends_found (fun current _ => ?_) fun _ => hsame
  refine ends_read readOnly_authorizeProjectManagement (fun _ => ?_) fun _ => hsame
  refine ends_lift_bind (fun _ _ => ?_) fun _ => hsame
  refine ends_checkInput (fun timestamps _ => ?_) fun _ => hsame
  refine ends_checkInput (fun updated _ => ?_) fun _ => hsame
  refine ends_commit hsame (fun change hplan => ?_) fun _ => hsame
  have hmem := ControlPlaneState.mem_of_updateProject hplan
  obtain ⟨rfl, hparent⟩ := ControlPlaneState.updateProject_ok hplan
  have hold (key : String) (hkey : key ∈ ((files .store).withProject updated).projects) :
      key ∈ (files .store).projects := by
    rcases Std.ExtTreeMap.mem_insert.mp hkey with hkey | hkey
    · rwa [← compare_eq_iff_eq.mp hkey]
    · exact hkey
  exact ⟨hsane.shrink (hsane.parented.withProject hparent) (fun _ hkey => hkey) hold,
    fun key hkey => .inl (hold key hkey)⟩

theorem ends_deleteOrganization {id : OrganizationId} (hsane : Sane files) :
    Ends applyChange (fun _ => Leaves none files) (leaving none files)
      (deleteOrganization principal id) 0 files := by
  have hsame : Leaves none files files := .refl hsane
  refine ends_read readOnly_authorizeOrganization (fun _ => ?_) fun _ => hsame
  apply ends_openStore
  refine ends_found (fun organization _ => ?_) fun _ => hsame
  split
  · exact hsame
  refine ends_commit hsame (fun change hplan => ?_) fun _ => hsame
  obtain ⟨rfl, hnone⟩ := ControlPlaneState.deleteOrganization_ok hplan
  have hdeleted : Sound ((files .store).apply (.removeOrganization id))
      (files .organizationMembers) (files .projectMembers) :=
    hsane.shrink (hsane.parented.removeOrganization hnone)
      (fun _ hkey => (Std.ExtTreeMap.mem_erase.mp hkey).2) fun _ hkey => hkey
  apply ends_openOrganizationMemberships
  · exact hsane.organizationVersion
  apply ends_mapError
  refine ends_purge ⟨⟨hdeleted, fun _ hkey => .inl hkey⟩, ?_⟩ ⟨hdeleted, fun _ hkey => .inl hkey⟩
  refine ⟨hdeleted.changeOrganizationMembers (.purge id.asStr) fun key hkey howned => ?_, fun _ hkey => .inl hkey⟩
  refine MembershipFile.owned_purge (fun hsame => ?_) howned
  exact (Std.ExtTreeMap.mem_erase.mp hkey).1 (compare_eq_iff_eq.mpr hsame)

theorem ends_deleteProject {id : ProjectId} (hsane : Sane files) :
    Ends applyChange (fun _ => Leaves none files) (leaving none files)
      (deleteProject principal id) 0 files := by
  have hsame : Leaves none files files := .refl hsane
  apply ends_openStore
  refine ends_found (fun project _ => ?_) fun _ => hsame
  refine ends_read readOnly_authorizeProjectManagement (fun _ => ?_) fun _ => hsame
  split
  · exact hsame
  refine ends_read readOnly_ensureNoCollections (fun _ => ?_) fun _ => hsame
  refine ends_commit hsame (fun change hplan => ?_) fun _ => hsame
  rw [ControlPlaneState.deleteProject_ok hplan]
  have hold (key : String) (hkey : key ∈ (((files .store).apply (.removeProject id))).projects) :
      key ∈ (files .store).projects := (Std.ExtTreeMap.mem_erase.mp hkey).2
  have hdeleted : Sound ((files .store).apply (.removeProject id))
      (files .organizationMembers) (files .projectMembers) :=
    hsane.shrink (hsane.parented.removeProject id) (fun _ hkey => hkey) hold
  apply ends_openProjectMemberships
  · exact hsane.projectVersion
  apply ends_mapError
  refine ends_purge ⟨⟨hdeleted, fun key hkey => .inl (hold key hkey)⟩, ?_⟩
    ⟨hdeleted, fun key hkey => .inl (hold key hkey)⟩
  refine ⟨hdeleted.changeProjectMembers (.purge id.asStr) fun key hkey howned => ?_,
    fun key hkey => .inl (hold key hkey)⟩
  refine MembershipFile.owned_purge (fun hsame => ?_) howned
  exact (Std.ExtTreeMap.mem_erase.mp hkey).1 (compare_eq_iff_eq.mpr hsame)

theorem ends_upsertOrganizationMembership {id : OrganizationId} {subject : String}
    {role : OrganizationRole} (hsane : Sane files) : Ends applyChange (fun _ => Leaves none files)
      (leaving none files) (upsertOrganizationMembership principal id subject role) 0 files := by
  have hsame : Leaves none files files := .refl hsane
  apply ends_openOrganizationMemberships
  · exact hsane.organizationVersion
  apply ends_mapError
  refine ends_upsert (fun membership hplan => ⟨hsame, ?_⟩) fun _ => hsame
  refine ⟨hsane.changeOrganizationMembers (.insert membership) fun _ _ howned => ?_, fun _ hkey => .inl hkey⟩
  rcases hplan with hplan | hplan
  · exact MembershipFile.owned_createMembership hplan howned
  · exact MembershipFile.owned_updateRole hplan howned

theorem ends_removeOrganizationMembership {id : OrganizationId} {subject : String}
    (hsane : Sane files) : Ends applyChange (fun _ => Leaves none files)
      (leaving none files) (removeOrganizationMembership principal id subject) 0 files := by
  have hsame : Leaves none files files := .refl hsane
  apply ends_openOrganizationMemberships
  · exact hsane.organizationVersion
  apply ends_mapError
  refine ends_remove (fun membership hplan => ⟨hsame, ?_⟩) fun _ => hsame
  exact ⟨hsane.changeOrganizationMembers _ fun _ _ => MembershipFile.owned_removeMembership hplan,
    fun _ hkey => .inl hkey⟩

theorem ends_upsertProjectMembership {id : ProjectId} {subject : String} {role : ProjectRole}
    (hsane : Sane files) : Ends applyChange (fun _ => Leaves none files)
      (leaving none files) (upsertProjectMembership principal id subject role) 0 files := by
  have hsame : Leaves none files files := .refl hsane
  apply ends_openProjectMemberships
  · exact hsane.projectVersion
  apply ends_handle
  refine ends_upsert (fun membership hplan => ⟨hsame, ?_⟩) fun _ => hsame
  refine ⟨hsane.changeProjectMembers (.insert membership) fun _ _ howned => ?_, fun _ hkey => .inl hkey⟩
  rcases hplan with hplan | hplan
  · exact MembershipFile.owned_createMembership hplan howned
  · exact MembershipFile.owned_updateRole hplan howned

theorem ends_removeProjectMembership {id : ProjectId} {subject : String} (hsane : Sane files) :
    Ends applyChange (fun _ => Leaves none files) (leaving none files)
      (removeProjectMembership principal id subject) 0 files := by
  have hsame : Leaves none files files := .refl hsane
  apply ends_openProjectMemberships
  · exact hsane.projectVersion
  apply ends_handle
  refine ends_remove (fun membership hplan => ⟨hsame, ?_⟩) fun _ => hsame
  exact ⟨hsane.changeProjectMembers _ fun _ _ => MembershipFile.owned_removeMembership hplan,
    fun _ hkey => .inl hkey⟩

end Calls

/-- The project that a call creates. -/
def Call.created : Call → Option String
  | .createProject _ _ input _ => some input.id
  | _ => none

/-- The call makes something and then its owner. -/
def Call.creates : Call → Bool
  | .createOrganization .. | .createProject .. => true
  | _ => false

theorem ends_acknowledged {ε α β : Type} {stopped stopped' : ℕ → Files → Prop}
    {created : Option String} {files : Files} {task : ApiTask ε α} {acknowledge : α → β}
    (h : Ends applyChange stopped (leaving created files) task 0 files)
    (hstopped : ∀ made after, stopped made after → stopped' made after) :
    Ends applyChange stopped' (leaving created files)
      (task >>= fun value => pure (acknowledge value)) 0 files :=
  ends_bind (h.mono hstopped (fun _ _ _ hleaves => hleaves) fun _ _ _ hleaves => hleaves)

/-- Where a creation may not stop, every other place leaves the files as required. -/
theorem Call.ends {call : Call} {files : Files} (hsane : Sane files) : Ends applyChange
    (fun made after => call.creates ∧ made = 1 ∨ Leaves call.created files after)
    (leaving call.created files) call.task 0 files := by
  have hcreates {created : Option String} (made : ℕ) (after : Files)
      (h : made = 1 ∨ Leaves created files after) :
      true ∧ made = 1 ∨ Leaves created files after := by simpa using h
  cases call with
  | createOrganization => exact ends_acknowledged (ends_createOrganization hsane) hcreates
  | createProject => exact ends_acknowledged (ends_createProject hsane) hcreates
  | updateOrganization =>
    exact ends_acknowledged (ends_updateOrganization hsane) fun _ _ => .inr
  | deleteOrganization =>
    exact ends_acknowledged (ends_deleteOrganization hsane) fun _ _ => .inr
  | updateProject => exact ends_acknowledged (ends_updateProject hsane) fun _ _ => .inr
  | deleteProject => exact ends_acknowledged (ends_deleteProject hsane) fun _ _ => .inr
  | upsertOrganizationMembership =>
    exact ends_acknowledged (ends_upsertOrganizationMembership hsane) fun _ _ => .inr
  | removeOrganizationMembership =>
    exact ends_acknowledged (ends_removeOrganizationMembership hsane) fun _ _ => .inr
  | upsertProjectMembership =>
    exact ends_acknowledged (ends_upsertProjectMembership hsane) fun _ _ => .inr
  | removeProjectMembership =>
    exact ends_acknowledged (ends_removeProjectMembership hsane) fun _ _ => .inr

/-- A call that does not stop between the writes of a creation leaves the files sane,
and only the project that it creates is new. -/
theorem Call.leaves {call : Call} {stop : Option ℕ} {files : Files} (hsane : Sane files)
    (hstop : call.creates → stop ≠ some 1) :
    Leaves call.created files (call.task.run applyChange stop files).1 := by
  rcases (Call.ends hsane).run stop with
    ⟨made, hmade, hbetween | hleaves⟩ | ⟨_, ⟨_, -, hleaves⟩ | ⟨_, -, hleaves⟩⟩
  · rw [Nat.zero_add] at hbetween
    exact absurd (hbetween.2 ▸ hmade) (hstop hbetween.1)
  all_goals exact hleaves

end ControlPlane

end Ketebe
