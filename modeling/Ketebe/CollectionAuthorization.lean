import Ketebe.ControlPlaneCodec
import Ketebe.Grants
import Ketebe.Lib.TaskAnswers

/-!
Who may act on a collection. The authorization service lets a member act whose role
and whose permission on the collection both allow it. The membership service puts the
permission in the place of the role, as documented. The two differ for a permission
that is broader than the role.
-/
namespace Ketebe.ControlPlane

open Lib.ByteCodec Lib.WholeFiles Lib.WholeFiles.Task

/-- A check that ends in an error unless it is passed. -/
theorem isOk_ite {ε : Type} {passed : Bool} {error : ε} :
    (if passed then .ok () else .error error : Except ε Unit).isOk = passed := by
  cases passed <;> rfl

namespace ProjectMembershipService

variable (service : ProjectMembershipService) (principal : Principal) (id : ProjectId)
  (action : AuthorizationAction)

def authorizeCollection (overridePermission : Option CollectionPermission) :
    Except MembershipError Unit :=
  match service.controlPlane.project id with
  | none => .error .undiscoverable
  | some project => do
      if project.lifecycle ≠ .active then .error .undiscoverable
      else
        let role ← service.roleOf id.asStr principal
        if (overridePermission.map (collectionPermissionAllows · action)).getD (role.allows action)
        then .ok () else .error .undiscoverable

/-- The role of the principal in a project that is active. -/
def activeRole : Option ProjectRole :=
  (service.controlPlane.project id).bind fun project =>
    if project.lifecycle ≠ .active then none else (service.roleOf id.asStr principal).toOption

/-- A member may do what the permission on the collection allows, and without one what
the role allows. -/
def documentedDecision (overridePermission : Option CollectionPermission) : Bool :=
  (activeRole service principal id).any fun role =>
    match overridePermission with
    | some permission => collectionPermissionAllows permission action
    | none => role.allows action

variable {service principal id action}

theorem isOk_authorize : (authorize service principal id action).isOk =
    (activeRole service principal id).any (·.allows action) := by
  unfold authorize activeRole
  cases service.controlPlane.project id with
  | none => rfl
  | some project =>
    show Except.isOk (ite _ _ _) = Option.any _ (ite _ _ _)
    by_cases hlifecycle : project.lifecycle ≠ .active
    · rw [if_pos hlifecycle, if_pos hlifecycle]
      rfl
    · rw [if_neg hlifecycle, if_neg hlifecycle]
      cases service.roleOf id.asStr principal with
      | error error => rfl
      | ok role =>
        exact isOk_ite

theorem isOk_authorizeCollection (overridePermission : Option CollectionPermission) :
    (authorizeCollection service principal id action overridePermission).isOk =
      documentedDecision service principal id action overridePermission := by
  unfold authorizeCollection documentedDecision activeRole
  cases service.controlPlane.project id with
  | none => rfl
  | some project =>
    show Except.isOk (ite _ _ _) = Option.any _ (ite _ _ _)
    by_cases hlifecycle : project.lifecycle ≠ .active
    · rw [if_pos hlifecycle, if_pos hlifecycle]
      rfl
    · rw [if_neg hlifecycle, if_neg hlifecycle]
      cases service.roleOf id.asStr principal with
      | error error => rfl
      | ok role =>
        refine isOk_ite.trans ?_
        cases overridePermission <;> rfl

end ProjectMembershipService

/-! ### The authorization service -/

section Decisions

variable {files : Files} {principal : Principal} {action : AuthorizationAction}

theorem answer_openStore {ε α : Type} {next : ControlPlaneState → ApiTask ε α} :
    (openStore >>= next).answer applyChange files = (next (files .store)).answer applyChange files :=
  rfl

/-- A person acts in a project as its membership service says. -/
theorem answer_authorizeProject (hhuman : principal.kind ≠ .workloadCredential)
    (hmembers : (files .projectMembers).version = membershipVersion) (id : ProjectId) :
    ((authorizeProject principal action id).answer applyChange files).isOk =
      (ProjectMembershipService.authorize ⟨files .store, files .projectMembers⟩ principal id
        action).isOk := by
  rw [authorizeProject, answer_openStore]
  cases hproject : (files .store).project id with
  | none =>
    rw [ProjectMembershipService.authorize, hproject]
    rfl
  | some project =>
    dsimp only
    by_cases hlifecycle : project.lifecycle ≠ .active
    · rw [if_pos hlifecycle, ProjectMembershipService.authorize, hproject]
      show false = Except.isOk (ite _ _ _)
      rw [if_pos hlifecycle]
      rfl
    · rw [if_neg hlifecycle, if_neg hhuman]
      have hopen : (files .projectMembers).openFile = .ok (files .projectMembers) :=
        if_neg (not_not.mpr hmembers)
      show ((lift ((files .projectMembers).openFile.mapError fun _ => AuthorizationError.resolver)
        >>= fun state => (lift ((ProjectMembershipService.authorize ⟨files .store, state⟩ principal
          id action).mapError fun _ => .undiscoverable) : ApiTask AuthorizationError Unit)).answer
            applyChange files).isOk = _
      rw [hopen]
      show ((ProjectMembershipService.authorize ⟨files .store, files .projectMembers⟩ principal id
        action).mapError fun _ => AuthorizationError.undiscoverable).isOk = _
      cases ProjectMembershipService.authorize ⟨files .store, files .projectMembers⟩ principal id
        action <;> rfl

theorem answer_openPolicies (hopen : (files .authorization).version = 1) :
    openPolicies.answer applyChange files = .ok (files .authorization) := by
  show Task.answer applyChange files (ite _ _ _) = _
  rw [if_neg (not_not.mpr hopen)]
  rfl

/-- On a collection that is claimed, the role check and the permission both decide. -/
theorem answer_authorizeCollectionInProject (hopen : (files .authorization).version = 1)
    {id : ProjectId} {collectionId key : String} {policy : CollectionPolicy}
    (hclaimed : (files .authorization).policyOf id.asStr collectionId = some (key, policy)) :
    ((authorizeCollectionInProject principal action id.asStr collectionId).answer applyChange
      files).isOk = (((authorizeProject principal action id).answer applyChange files).isOk &&
        policy.permissions[principal.subject]?.all (collectionPermissionAllows · action)) := by
  unfold authorizeCollectionInProject authorizeProjectNamed foundPolicy
  rw [readOnly_openPolicies.answer_bind, answer_openPolicies hopen, except_ok_bind,
    ProjectId.new_asStr, hclaimed]
  have hread : (authorizeProject principal action id).ReadOnly := readOnly_authorizeProject
  show ((authorizeProject principal action id >>= _).answer applyChange files).isOk = _
  rw [hread.answer_bind]
  cases (authorizeProject principal action id).answer applyChange files with
  | error error => rfl
  | ok _ =>
    show (Task.answer applyChange files (ite _ _ _)).isOk = _
    cases policy.permissions[principal.subject]? with
    | none => rfl
    | some permission =>
      show (Task.answer applyChange files
        (ite (some (collectionPermissionAllows permission action) = some false) _ _)).isOk =
          collectionPermissionAllows permission action
      cases collectionPermissionAllows permission action <;> rfl

/-- The two resolvers make the same decision, the documented one, exactly when the
permission allows the member nothing that the role does not. -/
theorem resolvers_agree_iff (hopen : (files .authorization).version = 1)
    (hmembers : (files .projectMembers).version = membershipVersion)
    (hhuman : principal.kind ≠ .workloadCredential) {id : ProjectId} {collectionId key : String}
    {policy : CollectionPolicy}
    (hclaimed : (files .authorization).policyOf id.asStr collectionId = some (key, policy)) :
    (((authorizeCollectionInProject principal action id.asStr collectionId).answer applyChange
          files).isOk =
        (ProjectMembershipService.authorizeCollection ⟨files .store, files .projectMembers⟩
          principal id action policy.permissions[principal.subject]?).isOk ∧
      (ProjectMembershipService.authorizeCollection ⟨files .store, files .projectMembers⟩
          principal id action policy.permissions[principal.subject]?).isOk =
        ProjectMembershipService.documentedDecision ⟨files .store, files .projectMembers⟩ principal
          id action policy.permissions[principal.subject]?) ↔
      ∀ role ∈ ProjectMembershipService.activeRole ⟨files .store, files .projectMembers⟩ principal
        id, ∀ permission ∈ policy.permissions[principal.subject]?,
          collectionPermissionAllows permission action → role.allows action := by
  rw [answer_authorizeCollectionInProject hopen hclaimed, answer_authorizeProject hhuman hmembers,
    ProjectMembershipService.isOk_authorize, ProjectMembershipService.isOk_authorizeCollection,
    ProjectMembershipService.documentedDecision]
  cases ProjectMembershipService.activeRole ⟨files .store, files .projectMembers⟩ principal id with
  | none => simp
  | some role =>
    cases policy.permissions[principal.subject]? with
    | none => simp
    | some permission =>
      cases hpermission : collectionPermissionAllows permission action with
      | false => simp [hpermission]
      | true => simp [hpermission]

end Decisions

/-! ### A reader with a permission to write -/

def sharedProject : Project :=
  ⟨.defaultProject, .defaultOrganization, ⟨"Default", validateName_Default⟩, ⟨"default", Slug.valid_default _⟩, .active,
    .epoch⟩

def readingMember : Principal := ⟨"reader", .credential, none, none⟩

def sharedPolicy (permission : CollectionPermission) : CollectionPolicy :=
  ⟨"default", (∅ : Std.ExtTreeMap String CollectionPermission compare).insert "reader" permission⟩

def sharedFiles (permission : CollectionPermission) : Files
  | .store => ControlPlaneState.default.withProject sharedProject
  | .organizationMembers => .default
  | .projectMembers => MembershipFile.default.apply (.insert ⟨"default", "reader", .reader⟩)
  | .collections => none
  | .authorization => PolicyFile.default.apply
      (.putCollection (collectionPolicyKey "default" "docs") (sharedPolicy permission))
  | .apiKeys => .default
  | .serviceAccounts => .default

theorem policyOf_sharedFiles (permission : CollectionPermission) :
    (sharedFiles permission .authorization).policyOf "default" "docs" =
      some (collectionPolicyKey "default" "docs", sharedPolicy permission) := by
  cases permission <;> rfl

theorem resolvers_agree_reading :
    ((authorizeCollectionInProject readingMember .collectionRead "default" "docs").answer
          applyChange (sharedFiles .read)).isOk =
        (ProjectMembershipService.authorizeCollection ⟨sharedFiles .read .store,
          sharedFiles .read .projectMembers⟩ readingMember .defaultProject .collectionRead
            (sharedPolicy .read).permissions["reader"]?).isOk ∧
      (ProjectMembershipService.authorizeCollection ⟨sharedFiles .read .store,
          sharedFiles .read .projectMembers⟩ readingMember .defaultProject .collectionRead
            (sharedPolicy .read).permissions["reader"]?).isOk =
        ProjectMembershipService.documentedDecision ⟨sharedFiles .read .store,
          sharedFiles .read .projectMembers⟩ readingMember .defaultProject .collectionRead
            (sharedPolicy .read).permissions["reader"]? :=
  (@resolvers_agree_iff (sharedFiles .read) readingMember .collectionRead rfl rfl (by decide)
    .defaultProject "docs" _ _ (policyOf_sharedFiles .read)).mpr fun role _ _ _ _ => by
      cases role <;> rfl

/-- The authorization service refuses a write that the membership service allows. -/
theorem not_resolvers_agree :
    (authorizeCollectionInProject readingMember .collectionWrite "default" "docs").answer
        applyChange (sharedFiles .write) = .error .undiscoverable ∧
      ProjectMembershipService.authorizeCollection ⟨sharedFiles .write .store,
        sharedFiles .write .projectMembers⟩ readingMember .defaultProject .collectionWrite
          (sharedPolicy .write).permissions["reader"]? = .ok () := by
  constructor <;> rfl

end Ketebe.ControlPlane
