import Ketebe.Grants
import Ketebe.Lib.Runs

/-!
Incarnations of a project. Its deletion purges its members, but neither the API keys
nor the assignments and policies that name it, so they apply to a project that is
later created under the same id. Runs without such a creation keep them apart.
-/
namespace Ketebe.ControlPlane

open Lib.Runs Lib.WholeFiles Lib.WholeFiles.Task

/-- The files with a clock, how often each project was created, and in which of its
incarnations each grant was made. -/
structure World where
  files : Files
  now : ℕ
  incarnations : String → ℕ
  granted : Grant → ℕ

/-- Calls run one after another. One may stop right before any of its writes. -/
inductive WorldEvent where
  | controlPlane (call : Call) (stop : Option ℕ)
  | apiKeys (call : ApiKeyCall) (stop : Option ℕ)
  | serviceAccounts (call : ServiceAccountCall) (stop : Option ℕ)
  | policies (call : PolicyCall) (stop : Option ℕ)
  | catalog (disk : Option CatalogFile)
  | wait (seconds : ℕ)

/-- No key in force, assignment or policy names the project. -/
structure Clear (files : Files) (now : ℕ) (id : String) : Prop where
  apiKeys : ∀ key, ¬holds files now (.apiKey id key)
  assignments : ∀ account, ¬holds files now (.assignment id account)
  claims : ∀ key, ¬holds files now (.claim id key)

def RetriableOrganization (files : Files) (id : String) : Prop :=
  ∃ (principal : Principal) (input : CreateOrganizationInput) (now : ℕ)
    (organization : Organization), input.id = id ∧
      result files (createOrganization principal input now) = some (.ok organization)

/-- What exists cannot be created. -/
theorem not_retriableOrganization {files : Files} {id : String}
    (hexists : id ∈ (files .store).organizations) : ¬RetriableOrganization files id := by
  rintro ⟨principal, input, now, organization, rfl, hresult⟩
  refine of_result (fun _ => False) ?_ hresult
  unfold createOrganization
  split
  · trivial
  refine ends_checkInput (fun id hid => ?_) fun _ => trivial
  refine ends_checkInput (fun timestamps _ => ?_) fun _ => trivial
  refine ends_checkInput (fun organization horganization => ?_) fun _ => trivial
  apply ends_openStore
  refine ends_commit trivial (fun change hplan => ?_) fun _ => trivial
  obtain ⟨-, hnew⟩ := ControlPlaneState.createOrganization_ok hplan
  obtain ⟨rfl, -⟩ := Organization.new_ok horganization
  rw [OrganizationId.asStr_of_new hid] at hnew
  exact absurd hexists hnew

def RetriableProject (files : Files) (id : String) : Prop :=
  ∃ (principal : Principal) (organizationId : OrganizationId) (input : CreateProjectInput)
    (now : ℕ) (project : Project), input.id = id ∧
      result files (createProject principal organizationId input now) = some (.ok project)

namespace World

def opened : World := ⟨Files.empty, 0, fun _ => 0, fun _ => 0⟩

variable (world : World)

/-- The world after its files changed: a project that is new has one incarnation
more, and a grant that is new belongs to the one that its project then has. -/
def become (now : ℕ) (files : Files) : World :=
  let incarnations (id : String) :=
    if id ∉ (world.files .store).projects ∧ id ∈ (files .store).projects then
      world.incarnations id + 1
    else world.incarnations id
  ⟨files, now, incarnations, fun grant =>
    if ¬holds world.files world.now grant ∧ holds files now grant then
      incarnations grant.projectId
    else world.granted grant⟩

def ran {ε α : Type} (task : ApiTask ε α) (stop : Option ℕ) : World :=
  world.become world.now (task.run applyChange stop world.files).1

def step (sha256 : List UInt8 → List UInt8) (world : World) : WorldEvent → World
  | .controlPlane call stop => world.ran call.task stop
  | .apiKeys call stop => world.ran (call.task sha256 world.now) stop
  | .serviceAccounts call stop => world.ran (call.task world.now) stop
  | .policies call stop => world.ran call.task stop
  | .catalog disk => world.become world.now (Function.update world.files .collections disk)
  | .wait seconds => world.become (world.now + seconds) world.files

/-- No creation stops between its two writes, and nothing names a project that is
about to be created. -/
def Guarded : WorldEvent → Prop
  | .controlPlane call stop => (call.creates → stop ≠ some 1) ∧
      ∀ id, call.created = some id → id ∉ (world.files .store).projects →
        Clear world.files world.now id
  | _ => True

/-- Whatever authorizes in a project was granted in its present incarnation. -/
def Fresh (sha256 : List UInt8 → List UInt8) : Prop :=
  ∀ grant, grant.projectId ∈ (world.files .store).projects →
    Authorizes sha256 world.files world.now grant →
      world.granted grant = world.incarnations grant.projectId

/-- What exists has an owner, or it can be created again. -/
structure Owned : Prop where
  organizations : ∀ id ∈ (world.files .store).organizations,
    (world.files .organizationMembers).Owned id ∨ RetriableOrganization world.files id
  projects : ∀ id ∈ (world.files .store).projects,
    (world.files .projectMembers).Owned id ∨ RetriableProject world.files id

structure Invariant : Prop where
  sane : Sane world.files
  fresh : ∀ grant, grant.projectId ∈ (world.files .store).projects →
    holds world.files world.now grant →
      world.granted grant = world.incarnations grant.projectId

section Runs

variable {world} {sha256 : List UInt8 → List UInt8}

theorem Invariant.become {now : ℕ} {files : Files} (h : world.Invariant) (hsane : Sane files)
    (hnew : ∀ id ∈ (files .store).projects, id ∉ (world.files .store).projects →
      ∀ grant, grant.projectId = id → ¬holds world.files world.now grant) :
    (world.become now files).Invariant := by
  refine ⟨hsane, fun grant hproject hholds => ?_⟩
  have hproject : grant.projectId ∈ (files .store).projects := hproject
  have hholds : holds files now grant := hholds
  show (if _ then _ else _) = if _ then _ else _
  by_cases hbefore : holds world.files world.now grant
  · have hold : grant.projectId ∈ (world.files .store).projects := by
      by_contra habsent
      exact hnew _ hproject habsent grant rfl hbefore
    rw [if_neg (fun hmade => hmade.1 hbefore), if_neg (fun hcreated => hcreated.1 hold)]
    exact h.fresh grant hold hbefore
  · rw [if_pos ⟨hbefore, hholds⟩]

/-- A project without members that nothing names has no grants. -/
theorem not_holds_of_clear {files : Files} {now : ℕ} {id : String} (hclear : Clear files now id)
    (hempty : ((files .projectMembers).members id).isEmpty) (grant : Grant)
    (hgrant : grant.projectId = id) : ¬holds files now grant := by
  subst hgrant
  cases grant with
  | member projectId subject =>
    intro hmember
    have hmember : subject ∈ (files .projectMembers).members projectId := hmember
    have hnone : (files .projectMembers).members projectId = ∅ :=
      Std.ExtTreeMap.isEmpty_iff.mp hempty
    rw [hnone] at hmember
    exact Std.ExtTreeMap.not_mem_empty hmember
  | apiKey projectId key => exact hclear.apiKeys key
  | assignment projectId account => exact hclear.assignments account
  | claim projectId key => exact hclear.claims key
  | permission projectId key subject =>
    intro hpermission
    apply hclear.claims key
    obtain ⟨policy, hpolicy, hpermits⟩ := Option.any_eq_true .. |>.mp hpermission
    exact Option.any_eq_true .. |>.mpr ⟨policy, hpolicy, decide_eq_true (of_decide_eq_true hpermits).1⟩

theorem Invariant.ran {ε α : Type} {task : ApiTask ε α} {stop : Option ℕ}
    (h : world.Invariant) (hforeign : task.WritesOnly Foreign) :
    (world.ran task stop).Invariant := by
  have hleaves : Leaves none world.files (task.run applyChange stop world.files).1 :=
    leaves_of_writesOnly h.sane hforeign
  refine h.become hleaves.sane fun id hid habsent => ?_
  rcases hleaves.projects id hid with hold | ⟨hnone, -⟩
  · exact absurd hold habsent
  · cases hnone

theorem step_preserves {event : WorldEvent} (h : world.Invariant) (hguarded : world.Guarded event) :
    (step sha256 world event).Invariant := by
  cases event with
  | controlPlane call stop =>
    have hleaves := Call.leaves h.sane hguarded.1
    refine h.become hleaves.sane fun id hid habsent => ?_
    rcases hleaves.projects id hid with hold | ⟨hcreated, hempty⟩
    · exact absurd hold habsent
    · exact not_holds_of_clear (hguarded.2 id hcreated habsent) hempty
  | apiKeys call stop => exact h.ran call.writesOnly
  | serviceAccounts call stop => exact h.ran call.writesOnly
  | policies call stop => exact h.ran call.writesOnly
  | catalog disk => exact h.become h.sane fun id hid habsent => absurd hid habsent
  | wait seconds => exact h.become h.sane fun id hid habsent => absurd hid habsent

/-- No grant belongs to an incarnation that is still to come. -/
theorem granted_le (hrun : Reaches (step sha256) (fun _ _ => True) opened world) (grant : Grant) :
    world.granted grant ≤ world.incarnations grant.projectId := by
  have hbecome (world : World) (now : ℕ) (files : Files)
      (h : world.granted grant ≤ world.incarnations grant.projectId) :
      (world.become now files).granted grant ≤
        (world.become now files).incarnations grant.projectId := by
    have hgrows : world.incarnations grant.projectId ≤
        (world.become now files).incarnations grant.projectId := by
      show _ ≤ if _ then _ + 1 else _
      split
      · exact Nat.le_succ _
      · exact Nat.le_refl _
    show (if _ then _ else _) ≤ _
    split
    · exact Nat.le_refl _
    · exact h.trans hgrows
  refine hrun.invariant (fun world => world.granted grant ≤ world.incarnations grant.projectId)
    (Nat.le_refl 0) fun world event h _ => ?_
  cases event <;> exact hbecome world _ _ h

/-- A grant that is still stored when its project is created again is not fresh. -/
theorem granted_ne_of_recreated {now : ℕ} {files : Files} {grant : Grant}
    (hle : world.granted grant ≤ world.incarnations grant.projectId)
    (hholds : holds world.files world.now grant)
    (habsent : grant.projectId ∉ (world.files .store).projects)
    (hcreated : grant.projectId ∈ (files .store).projects) :
    (world.become now files).granted grant ≠
      (world.become now files).incarnations grant.projectId := by
  show (if _ then _ else _) ≠ if _ then _ else _
  rw [if_neg (fun hmade => hmade.1 hholds), if_pos ⟨habsent, hcreated⟩]
  omega

theorem sane_empty : Sane Files.empty := by
  refine ⟨parented_empty, rfl, rfl, fun id hid => ?_, fun id hid => ?_⟩
  all_goals exact absurd hid Std.ExtTreeMap.not_mem_empty

/-- As long as no creation stops between its writes and nothing names the project
that is created, only grants of a project's present incarnation authorize in it, and
whatever exists has an owner. -/
theorem no_authority_left
    (hrun : Reaches (step sha256) Guarded opened world) :
    world.Fresh sha256 ∧ world.Owned := by
  have h : world.Invariant := hrun.invariant Invariant
    ⟨sane_empty, fun grant hproject _ => absurd hproject Std.ExtTreeMap.not_mem_empty⟩
    fun _ _ h hguarded => step_preserves h hguarded
  refine ⟨fun grant hproject hauthorizes => ?_, ⟨fun id hid => ?_, fun id hid => ?_⟩⟩
  · exact h.fresh grant hproject (holds_of_authorizes hauthorizes)
  · exact .inl (h.sane.organizations id hid)
  · exact .inl (h.sane.projects id hid)

end Runs

section Sample

variable (sha256 : List UInt8 → List UInt8)

def projectA : ProjectId := ⟨"project-a", validateIdentifier_projectA⟩

def worker : ServiceAccountId := ⟨"worker", by decide⟩

def createProjectA : Call :=
  .createProject ownerPrincipal organizationA.id ⟨"project-a", "A", "a"⟩ 0

/-- The organization and the project are created, and nothing else. -/
def created : World :=
  step sha256 (step sha256 opened (.controlPlane createA none)) (.controlPlane createProjectA none)

theorem reaches_created : Reaches (step sha256) Guarded opened (created sha256) := by
  have hstart : Reaches (step sha256) Guarded opened opened := Reaches.refl _
  have horganization := hstart.tail (.controlPlane createA none) ⟨nofun, nofun⟩
  refine horganization.tail (.controlPlane createProjectA none) ⟨nofun, fun id _ _ => ?_⟩
  refine ⟨fun key => ?_, fun account => ?_, fun key => ?_⟩
  all_goals exact Bool.false_ne_true

theorem no_authority_left_sample :
    (∀ sha256, (created sha256).Fresh sha256) ∧ ∀ sha256, (created sha256).Owned :=
  ⟨fun sha256 => (no_authority_left (reaches_created sha256)).1,
    fun sha256 => (no_authority_left (reaches_created sha256)).2⟩

/-! A worker is assigned to a project, which is then deleted and created again. -/

def sampleFiles (projects : Std.ExtTreeMap String Project compare)
    (members : MembershipFile ProjectRole) (accounts : ServiceAccountFile) : Files
  | .store => ⟨(∅ : Std.ExtTreeMap String Organization compare).insert "org-a" organizationA, projects⟩
  | .organizationMembers => MembershipFile.default.apply (.insert ⟨"org-a", "owner", .owner⟩)
  | .projectMembers => members
  | .collections => none
  | .authorization => .default
  | .apiKeys => .default
  | .serviceAccounts => accounts

def sampleProject (lifecycle : ResourceLifecycleState) : Project :=
  ⟨projectA, organizationA.id, ⟨"A", validateName_A⟩, ⟨"a", by decide⟩, lifecycle,
    .epoch⟩

def activeProjects : Std.ExtTreeMap String Project compare :=
  (∅ : Std.ExtTreeMap String Project compare).insert "project-a" (sampleProject .active)

def deletingProjects : Std.ExtTreeMap String Project compare :=
  activeProjects.insert "project-a" (sampleProject .deleting)

def deletedProjects : Std.ExtTreeMap String Project compare := deletingProjects.erase "project-a"

def sampleMembers : MembershipFile ProjectRole :=
  MembershipFile.default.apply (.insert ⟨"project-a", "owner", .owner⟩)

def purgedMembers : MembershipFile ProjectRole := sampleMembers.apply (.purge "project-a")

def sampleAccounts : ServiceAccountFile :=
  ServiceAccountFile.default.apply (.put worker ⟨worker, "worker", .active, 0, 0, ∅⟩)

def assignedAccounts : ServiceAccountFile := sampleAccounts.apply (.put worker
  ⟨worker, "worker", .active, 0, 0, (∅ : Std.ExtTreeMap String ProjectRole compare).insert
    "project-a" .editor⟩)

/-- A run leads to the files, without any time passing. -/
def ReachesFiles (files : Files) : Prop :=
  ∃ world, Reaches (step sha256) (fun _ _ => True) opened world ∧ world.now = 0 ∧
    world.files = files

variable {sha256}

theorem ReachesFiles.call {files after : Files} (h : ReachesFiles sha256 files) (call : Call)
    (hrun : (call.task.run applyChange none files).1 = after) : ReachesFiles sha256 after := by
  obtain ⟨world, hreaches, hnow, rfl⟩ := h
  exact ⟨_, hreaches.tail (.controlPlane call none) trivial, hnow, hrun⟩

theorem ReachesFiles.account {files after : Files} (h : ReachesFiles sha256 files)
    (call : ServiceAccountCall) (hrun : ((call.task 0).run applyChange none files).1 = after) :
    ReachesFiles sha256 after := by
  obtain ⟨world, hreaches, hnow, rfl⟩ := h
  refine ⟨_, hreaches.tail (.serviceAccounts call none) trivial, hnow, ?_⟩
  rw [← hrun, ← hnow]
  rfl

theorem reachesFiles_deleted :
    ReachesFiles sha256 (sampleFiles deletedProjects purgedMembers assignedAccounts) := by
  have hstart : ReachesFiles sha256 Files.empty := ⟨opened, Reaches.refl _, rfl, rfl⟩
  have horganization : ReachesFiles sha256 (sampleFiles ∅ .default .default) :=
    hstart.call createA (by funext file; cases file <;> rfl)
  have hproject : ReachesFiles sha256 (sampleFiles activeProjects sampleMembers .default) :=
    horganization.call createProjectA (by funext file; cases file <;> rfl)
  have haccount : ReachesFiles sha256 (sampleFiles activeProjects sampleMembers sampleAccounts) :=
    hproject.account (.create worker "worker") (by funext file; cases file <;> rfl)
  have hassigned :
      ReachesFiles sha256 (sampleFiles activeProjects sampleMembers assignedAccounts) :=
    haccount.account (.assignProject worker projectA .editor) (by funext file; cases file <;> rfl)
  have hdeleting :
      ReachesFiles sha256 (sampleFiles deletingProjects sampleMembers assignedAccounts) :=
    hassigned.call (.updateProject ownerPrincipal projectA ⟨"A", "a", .deleting⟩ 0)
      (by funext file; cases file <;> rfl)
  exact hdeleting.call (.deleteProject ownerPrincipal projectA) (by funext file; cases file <;> rfl)

theorem files_recreated : (createProjectA.task.run applyChange none
    (sampleFiles deletedProjects purgedMembers assignedAccounts)).1 =
      sampleFiles (deletedProjects.insert "project-a" (sampleProject .active))
        (purgedMembers.apply (.insert ⟨"project-a", "owner", .owner⟩)) assignedAccounts := by
  funext file
  cases file <;> rfl

/-- The worker's old assignment authorizes in the new project. An organization whose
creation stopped between its writes has no owner, and cannot be created again. -/
theorem authority_left :
    (∀ sha256, ∃ world,
      Reaches (step sha256) (fun _ _ => True) opened world ∧ ¬world.Fresh sha256) ∧
    ∀ sha256, ∃ world, Reaches (step sha256) (fun _ _ => True) opened world ∧ ¬world.Owned := by
  constructor <;> intro sha256
  · obtain ⟨world, hreaches, hnow, hfiles⟩ : ReachesFiles sha256 _ := reachesFiles_deleted
    refine ⟨_, hreaches.tail (.controlPlane createProjectA none) trivial, fun hfresh => ?_⟩
    have hafter : (step sha256 world (.controlPlane createProjectA none)).files = _ :=
      (congrArg (fun files => (createProjectA.task.run applyChange none files).1) hfiles).trans
        files_recreated
    have hcreated : "project-a" ∈
        ((step sha256 world (.controlPlane createProjectA none)).files .store).projects := by
      rw [hafter]
      exact Std.ExtTreeMap.mem_insert_self
    have habsent : "project-a" ∉ (world.files .store).projects := by
      rw [hfiles]
      exact fun h => (Std.ExtTreeMap.mem_erase.mp h).1 (compare_eq_iff_eq.mpr rfl)
    have hholds : holds world.files world.now (.assignment "project-a" "worker") := by
      rw [hfiles]
      rfl
    refine granted_ne_of_recreated (granted_le hreaches _) hholds habsent hcreated
      (hfresh (.assignment "project-a" "worker") hcreated ?_)
    refine ⟨worker, projectA, .editor, rfl, rfl, ?_⟩
    rw [hafter]
    rfl
  · refine ⟨_, (Reaches.refl opened).tail (.controlPlane createA (some 1)) trivial, fun howned => ?_⟩
    have hexists : "org-a" ∈
        ((step sha256 opened (.controlPlane createA (some 1))).files .store).organizations :=
      Std.ExtTreeMap.mem_insert_self
    rcases howned.organizations "org-a" hexists with ⟨subject, membership, hmember, -⟩ | hretriable
    · have hnone : (((step sha256 opened (.controlPlane createA (some 1))).files
          .organizationMembers).members "org-a")[subject]? = none := Std.ExtTreeMap.getElem?_empty
      cases hnone.symm.trans hmember
    · exact not_retriableOrganization hexists hretriable

end Sample

end World

end Ketebe.ControlPlane
