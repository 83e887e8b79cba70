import Ketebe.Lib.WholeFiles
import Ketebe.ApiKeys
import Ketebe.CollectionPolicies
import Ketebe.NamespaceCatalog
import Ketebe.ServiceAccounts

/-!
The files of the control plane. Every service of it opens an instance of its own by
reading a whole file, and replaces the whole file later. The items of the files
are the organizations, the projects and the members of both.
-/
namespace Ketebe

open Lib.WholeFiles

namespace ControlPlane

inductive File where
  | store
  | organizationMembers
  | projectMembers
  | collections
  | authorization
  | apiKeys
  | serviceAccounts
  deriving DecidableEq

abbrev Content : File → Type
  | .store => ControlPlaneState
  | .organizationMembers => MembershipFile OrganizationRole
  | .projectMembers => MembershipFile ProjectRole
  | .collections => Option CatalogFile
  | .authorization => PolicyFile
  | .apiKeys => ApiKeyFile
  | .serviceAccounts => ServiceAccountFile

/-- The catalog of collections is only read here. -/
abbrev Change : File → Type
  | .store => ControlPlaneChange
  | .organizationMembers => MembershipChange OrganizationRole
  | .projectMembers => MembershipChange ProjectRole
  | .collections => Empty
  | .authorization => PolicyChange
  | .apiKeys => ApiKeyChange
  | .serviceAccounts => ServiceAccountChange

abbrev Files := (file : File) → Content file

def Files.empty : Files
  | .store => .default
  | .organizationMembers => .default
  | .projectMembers => .default
  | .collections => none
  | .authorization => .default
  | .apiKeys => .default
  | .serviceAccounts => .default

inductive Item where
  | organization (id : String)
  | project (id : String)
  | organizationMember (organizationId subject : String)
  | projectMember (projectId subject : String)
  deriving DecidableEq

inductive ItemValue where
  | organization (value : Option Organization)
  | project (value : Option Project)
  | organizationMember (value : Option (Membership OrganizationRole))
  | projectMember (value : Option (Membership ProjectRole))
  deriving DecidableEq

def applyChange : {file : File} → Change file → Content file → Content file
  | .store, change, state => state.apply change
  | .organizationMembers, change, file => file.apply change
  | .projectMembers, change, file => file.apply change
  | .collections, change, _ => change.elim
  | .authorization, change, file => file.apply change
  | .apiKeys, change, file => file.apply change
  | .serviceAccounts, change, file => file.apply change

def itemValue (files : Files) : Item → ItemValue
  | .organization id => .organization (files .store).organizations[id]?
  | .project id => .project (files .store).projects[id]?
  | .organizationMember organizationId subject =>
      .organizationMember ((files .organizationMembers).members organizationId)[subject]?
  | .projectMember projectId subject =>
      .projectMember ((files .projectMembers).members projectId)[subject]?

def storeSets : ControlPlaneChange → Item → Option ItemValue
  | .insertOrganization organization, .organization id =>
      if organization.id.asStr = id then some (.organization (some organization)) else none
  | .insertProject project, .project id =>
      if project.id.asStr = id then some (.project (some project)) else none
  | .insertDefaults organization _, .organization id =>
      if organization.id.asStr = id then some (.organization (some organization)) else none
  | .insertDefaults _ project, .project id =>
      if project.id.asStr = id then some (.project (some project)) else none
  | .removeOrganization removed, .organization id =>
      if removed.asStr = id then some (.organization none) else none
  | .removeProject removed, .project id =>
      if removed.asStr = id then some (.project none) else none
  | _, _ => none

/-- The new membership of a subject, when the change is about it. -/
def memberSets {Role : Type} (resourceId subject : String) :
    MembershipChange Role → Option (Option (Membership Role))
  | .insert membership =>
      if membership.resourceId = resourceId ∧ membership.subject = subject then
        some (some membership)
      else none
  | .remove removed name => if removed = resourceId ∧ name = subject then some none else none
  | .purge purged => if purged = resourceId then some none else none

def organizationMemberSets (change : MembershipChange OrganizationRole) :
    Item → Option ItemValue
  | .organizationMember organizationId subject =>
      (memberSets organizationId subject change).map .organizationMember
  | _ => none

def projectMemberSets (change : MembershipChange ProjectRole) : Item → Option ItemValue
  | .projectMember projectId subject =>
      (memberSets projectId subject change).map .projectMember
  | _ => none

def sets : {file : File} → Change file → Item → Option ItemValue
  | .store, change => storeSets change
  | .organizationMembers, change => organizationMemberSets change
  | .projectMembers, change => projectMemberSets change
  | .collections, change => change.elim
  | .authorization, _ => fun _ => none
  | .apiKeys, _ => fun _ => none
  | .serviceAccounts, _ => fun _ => none

theorem members_apply {Role : Type} (file : MembershipFile Role) (change : MembershipChange Role)
    (resourceId subject : String) : ((file.apply change).members resourceId)[subject]? =
      (memberSets resourceId subject change).getD (file.members resourceId)[subject]? := by
  cases change with
  | insert membership =>
    rw [MembershipFile.members_insert, memberSets]
    split <;> rfl
  | remove removed name =>
    rw [MembershipFile.members_remove, memberSets]
    split <;> rfl
  | purge purged =>
    rw [MembershipFile.members_purge, memberSets]
    split <;> rfl

theorem organizations_apply (state : ControlPlaneState) (change : ControlPlaneChange)
    (id : String) : ItemValue.organization (state.apply change).organizations[id]? =
      (storeSets change (.organization id)).getD (.organization state.organizations[id]?) := by
  cases change with
  | insertOrganization organization | insertDefaults organization project =>
    simp only [ControlPlaneState.apply, ControlPlaneState.withOrganization,
      ControlPlaneState.withProject, storeSets, Std.ExtTreeMap.getElem?_insert, compare_eq_iff_eq]
    split <;> rfl
  | insertProject project | removeProject removed => rfl
  | removeOrganization removed =>
    simp only [ControlPlaneState.apply, storeSets, Std.ExtTreeMap.getElem?_erase,
      compare_eq_iff_eq]
    split <;> rfl

theorem projects_apply (state : ControlPlaneState) (change : ControlPlaneChange) (id : String) :
    ItemValue.project (state.apply change).projects[id]? =
      (storeSets change (.project id)).getD (.project state.projects[id]?) := by
  cases change with
  | insertProject project | insertDefaults organization project =>
    simp only [ControlPlaneState.apply, ControlPlaneState.withOrganization,
      ControlPlaneState.withProject, storeSets, Std.ExtTreeMap.getElem?_insert, compare_eq_iff_eq]
    split <;> rfl
  | insertOrganization organization | removeOrganization removed => rfl
  | removeProject removed =>
    simp only [ControlPlaneState.apply, storeSets, Std.ExtTreeMap.getElem?_erase,
      compare_eq_iff_eq]
    split <;> rfl

theorem itemValue_update (files : Files) (file : File) (change : Change file) (item : Item) :
    itemValue (Function.update files file (applyChange change (files file))) item =
      (sets change item).getD (itemValue files item) := by
  cases file with
  | store =>
    cases item with
    | organization id => exact organizations_apply (files .store) change id
    | project id => exact projects_apply (files .store) change id
    | organizationMember organizationId subject => cases change <;> rfl
    | projectMember projectId subject => cases change <;> rfl
  | organizationMembers =>
    cases item with
    | organizationMember organizationId subject =>
      have hmembers := members_apply (files .organizationMembers) change organizationId subject
      exact (congrArg ItemValue.organizationMember hmembers).trans (Option.getD_map ..).symm
    | organization id | project id | projectMember projectId subject => rfl
  | projectMembers =>
    cases item with
    | projectMember projectId subject =>
      have hmembers := members_apply (files .projectMembers) change projectId subject
      exact (congrArg ItemValue.projectMember hmembers).trans (Option.getD_map ..).symm
    | organization id | project id | organizationMember organizationId subject => rfl
  | collections => exact change.elim
  | authorization | apiKeys | serviceAccounts => cases item <;> rfl

/-- The control plane's files and items. -/
def layout : Layout Content Change Item ItemValue :=
  ⟨applyChange, itemValue, sets, itemValue_update⟩

end ControlPlane

end Ketebe
