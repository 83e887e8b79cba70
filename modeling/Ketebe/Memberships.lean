import Ketebe.Authentication
import Ketebe.ControlPlaneStore

/-!
Memberships of organizations and projects. The two services differ in their roles
and in who may act; what they do to their file is the same, and is defined once.
-/
namespace Ketebe

open Lib.ByteCodec

inductive OrganizationRole where
  | owner
  | admin
  | member
  | billingAdmin
  deriving DecidableEq, Repr

inductive OrganizationAction where
  | organizationRead
  | organizationUpdate
  | membershipRead
  | membershipWrite
  | billingManage
  deriving DecidableEq, Repr

def OrganizationRole.allows : OrganizationRole → OrganizationAction → Bool
  | .owner, _ => true
  | .admin, action => action ≠ .billingManage
  | .member, action => action = .organizationRead
  | .billingAdmin, action => action = .organizationRead ∨ action = .billingManage

inductive AuthorizationAction where
  | collectionDiscover
  | collectionRead
  | collectionCreate
  | collectionWrite
  | collectionDelete
  | projectAdmin
  deriving DecidableEq, Repr

/-- `project_role_allows` of the membership service. -/
def ProjectRole.allows : ProjectRole → AuthorizationAction → Bool
  | .owner, _ => true
  | .editor, action => action = .collectionDiscover ∨ action = .collectionRead ∨
      action = .collectionCreate ∨ action = .collectionWrite
  | .reader, action => action = .collectionDiscover ∨ action = .collectionRead

/-- Roles with one that a resource may not be left without. -/
class MembershipRole (Role : Type) where
  owner : Role
  decideEq : DecidableEq Role

instance {Role : Type} [MembershipRole Role] : DecidableEq Role := MembershipRole.decideEq

instance : MembershipRole OrganizationRole := ⟨.owner, inferInstance⟩

instance : MembershipRole ProjectRole := ⟨.owner, inferInstance⟩

structure Membership (Role : Type) where
  resourceId : String
  subject : String
  role : Role
  deriving DecidableEq

inductive MembershipError where
  | invalidSubject
  | resourceNotFound
  | undiscoverable
  | membershipAlreadyExists
  | lastOwner
  | io
  | unsupportedVersion (version : ℕ)
  deriving DecidableEq, Repr

def Membership.new {Role : Type} (resourceId subject : String) (role : Role) :
    Except MembershipError (Membership Role) :=
  if trim subject = "" then .error .invalidSubject else .ok ⟨resourceId, subject, role⟩

abbrev MemberTable (Role : Type) := Std.ExtTreeMap String (Membership Role) compare

def membershipVersion : ℕ := 1

structure MembershipFile (Role : Type) where
  version : ℕ
  memberships : Std.ExtTreeMap String (MemberTable Role) compare

inductive MembershipChange (Role : Type) where
  | insert (membership : Membership Role)
  | remove (resourceId subject : String)
  | purge (resourceId : String)

namespace MembershipFile

variable {Role : Type}

def default : MembershipFile Role := ⟨membershipVersion, ∅⟩

/-- The members of a resource; an unknown one has none. -/
def members (file : MembershipFile Role) (resourceId : String) : MemberTable Role :=
  file.memberships.getD resourceId ∅

def setMembers (file : MembershipFile Role) (resourceId : String) (members : MemberTable Role) :
    MembershipFile Role :=
  { file with memberships := file.memberships.insert resourceId members }

def apply (file : MembershipFile Role) : MembershipChange Role → MembershipFile Role
  | .insert membership => file.setMembers membership.resourceId
      ((file.members membership.resourceId).insert membership.subject membership)
  | .remove resourceId subject =>
      file.setMembers resourceId ((file.members resourceId).erase subject)
  | .purge resourceId => { file with memberships := file.memberships.erase resourceId }

/-- Reading the stored file checks its version. -/
def openFile (file : MembershipFile Role) : Except MembershipError (MembershipFile Role) :=
  if file.version ≠ membershipVersion then .error (.unsupportedVersion file.version) else .ok file

section Operations

variable [MembershipRole Role] (file : MembershipFile Role)

def ownerCount (members : MemberTable Role) : ℕ :=
  (members.toList.filter fun entry => entry.2.role = MembershipRole.owner).length

def bootstrapOwner (resourceId subject : String) : Except MembershipError (Membership Role) :=
  if (file.members resourceId).isEmpty then
    Membership.new resourceId subject MembershipRole.owner
  else .error .membershipAlreadyExists

def createMembership (resourceId subject : String) (role : Role) :
    Except MembershipError (Membership Role) := do
  let membership ← Membership.new resourceId subject role
  if subject ∈ file.members resourceId then .error .membershipAlreadyExists
  else pure membership

def updateRole (resourceId subject : String) (role : Role) :
    Except MembershipError (Membership Role) :=
  match (file.members resourceId)[subject]? with
  | none => .error .undiscoverable
  | some current =>
      if current.role = MembershipRole.owner ∧ role ≠ MembershipRole.owner ∧
          ownerCount (file.members resourceId) = 1 then .error .lastOwner
      else Membership.new resourceId subject role

def removeMembership (resourceId subject : String) : Except MembershipError (Membership Role) :=
  match (file.members resourceId)[subject]? with
  | none => .error .undiscoverable
  | some membership =>
      if membership.role = MembershipRole.owner ∧ ownerCount (file.members resourceId) = 1 then
        .error .lastOwner
      else .ok membership

end Operations

/-! ### Members after a change -/

variable {file : MembershipFile Role}

theorem members_setMembers (resourceId other : String) (members : MemberTable Role) :
    (file.setMembers resourceId members).members other =
      if resourceId = other then members else file.members other := by
  simp only [MembershipFile.members, setMembers, Std.ExtTreeMap.getD_insert, compare_eq_iff_eq]

theorem members_insert (membership : Membership Role) (resourceId subject : String) :
    ((file.apply (.insert membership)).members resourceId)[subject]? =
      if membership.resourceId = resourceId ∧ membership.subject = subject then some membership
      else (file.members resourceId)[subject]? := by
  rw [apply, members_setMembers]
  by_cases hresource : membership.resourceId = resourceId
  · simp only [hresource, if_true, true_and, Std.ExtTreeMap.getElem?_insert, compare_eq_iff_eq]
  · simp only [hresource, if_false, false_and]

theorem members_remove (resourceId subject other name : String) :
    ((file.apply (.remove resourceId subject)).members other)[name]? =
      if resourceId = other ∧ subject = name then none else (file.members other)[name]? := by
  rw [apply, members_setMembers]
  by_cases hresource : resourceId = other
  · simp only [hresource, if_true, true_and, Std.ExtTreeMap.getElem?_erase, compare_eq_iff_eq]
  · simp only [hresource, if_false, false_and]

theorem members_purge (resourceId other name : String) :
    ((file.apply (.purge resourceId)).members other)[name]? =
      if resourceId = other then none else (file.members other)[name]? := by
  simp only [apply, MembershipFile.members, Std.ExtTreeMap.getD_erase, compare_eq_iff_eq]
  split
  · simp
  · rfl

end MembershipFile

theorem Membership.new_ok {Role : Type} {resourceId subject : String} {role : Role}
    {membership : Membership Role} (h : Membership.new resourceId subject role = .ok membership) :
    membership = ⟨resourceId, subject, role⟩ := by
  unfold Membership.new at h
  split at h
  · cases h
  · cases h
    rfl

theorem MembershipFile.createMembership_ok {Role : Type} {file : MembershipFile Role}
    {resourceId subject : String} {role : Role} {membership : Membership Role}
    (h : file.createMembership resourceId subject role = .ok membership) :
    membership = ⟨resourceId, subject, role⟩ := by
  obtain ⟨created, hnew, h⟩ := except_bind_ok.mp h
  split at h
  · cases h
  · cases h
    exact Membership.new_ok hnew

section Operations

variable {Role : Type} [MembershipRole Role] {file : MembershipFile Role}
  {resourceId subject : String} {role : Role} {membership : Membership Role}

theorem MembershipFile.bootstrapOwner_ok
    (h : file.bootstrapOwner resourceId subject = .ok membership) :
    membership = ⟨resourceId, subject, MembershipRole.owner⟩ := by
  unfold bootstrapOwner at h
  split at h
  · exact Membership.new_ok h
  · cases h

theorem MembershipFile.updateRole_ok
    (h : file.updateRole resourceId subject role = .ok membership) :
    membership = ⟨resourceId, subject, role⟩ := by
  unfold updateRole at h
  split at h
  · cases h
  · split at h
    · cases h
    · exact Membership.new_ok h

end Operations

end Ketebe
