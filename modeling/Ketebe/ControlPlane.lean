import Ketebe.Collection
import Ketebe.Lib.ByteCodec
import Ketebe.Scope

/-!
Organizations and projects. Both have a stable id, a display name and a slug, and
are active, suspended or about to be deleted. A resource keeps the proofs that
its name, slug and timestamps were checked.
-/
namespace Ketebe

open Lib.ByteCodec

inductive ControlPlaneDomainError where
  | empty (kind : String)
  | tooLong (kind : String) (max actual : ℕ)
  | invalidCharacter (kind : String) (character : Char) (index : ℕ)
  | updatedBeforeCreated
  deriving DecidableEq, Repr

namespace ControlPlaneDomainError

def display : ControlPlaneDomainError → String
  | .empty kind => kind ++ " must not be empty"
  | .tooLong kind max actual => kind ++ " exceeds " ++ toString max ++ " bytes: " ++ toString actual
  | .invalidCharacter kind character index =>
      "invalid character '" ++ character.toString ++ "' in " ++ kind ++ " at byte " ++
        toString index
  | .updatedBeforeCreated => "updated timestamp must not precede created timestamp"

/-- The control plane checks identifiers as scopes do. -/
def ofScope : ScopeError → ControlPlaneDomainError
  | .empty kind => .empty kind
  | .tooLong kind max actual => .tooLong kind max actual
  | .invalidCharacter kind character index => .invalidCharacter kind character index

end ControlPlaneDomainError

namespace ControlPlane

def maxOrganizationIdLen : ℕ := 128

def maxResourceNameLen : ℕ := 256

def maxResourceSlugLen : ℕ := 128

def validateIdentifier (kind value : String) (max : ℕ) : Except ControlPlaneDomainError Unit :=
  (Ketebe.validateIdentifier kind value max).mapError .ofScope

def resourceName : String := "resource name"

/-- What `normalize_name` requires of the trimmed name. -/
def validateName (trimmed : String) : Except ControlPlaneDomainError Unit :=
  if trimmed = "" then .error (.empty resourceName)
  else if maxResourceNameLen < trimmed.utf8ByteSize then
    .error (.tooLong resourceName maxResourceNameLen trimmed.utf8ByteSize)
  else .ok ()

end ControlPlane

open ControlPlane

/-- Stable organization identity. -/
structure OrganizationId where
  asStr : String
  valid : ControlPlane.validateIdentifier "organization id" asStr maxOrganizationIdLen = .ok ()
  deriving DecidableEq

namespace OrganizationId

def new (value : String) : Except ControlPlaneDomainError OrganizationId :=
  match h : ControlPlane.validateIdentifier "organization id" value maxOrganizationIdLen with
  | .ok () => .ok ⟨value, h⟩
  | .error error => .error error

def defaultOrganization : OrganizationId := ⟨"default", by decide⟩

end OrganizationId

inductive ResourceLifecycleState where
  | active
  | suspended
  | deleting
  deriving DecidableEq, Repr

structure ResourceTimestamps where
  createdAtUnix : ℕ
  updatedAtUnix : ℕ
  ordered : createdAtUnix ≤ updatedAtUnix
  deriving DecidableEq

def ResourceTimestamps.epoch : ResourceTimestamps := ⟨0, 0, Nat.le_refl 0⟩

def ResourceTimestamps.new (createdAtUnix updatedAtUnix : ℕ) :
    Except ControlPlaneDomainError ResourceTimestamps :=
  if h : updatedAtUnix < createdAtUnix then .error .updatedBeforeCreated
  else .ok ⟨createdAtUnix, updatedAtUnix, Nat.le_of_not_lt h⟩

/-- A display name, trimmed. -/
structure ResourceName where
  asStr : String
  valid : validateName asStr = .ok ()
  deriving DecidableEq

theorem validateName_A : validateName "A" = .ok () := by decide

theorem validateName_Default : validateName "Default" = .ok () := by decide

/-- `normalize_name`. -/
def ResourceName.normalize (value : String) : Except ControlPlaneDomainError ResourceName :=
  match h : validateName (trim value) with
  | .ok () => .ok ⟨trim value, h⟩
  | .error error => .error error

structure Slug (kind : String) where
  asStr : String
  valid : ControlPlane.validateIdentifier kind asStr maxResourceSlugLen = .ok ()
  deriving DecidableEq

theorem Slug.valid_default (kind : String) :
    ControlPlane.validateIdentifier kind "default" maxResourceSlugLen = .ok () := by rfl

def Slug.new (kind value : String) : Except ControlPlaneDomainError (Slug kind) :=
  match h : ControlPlane.validateIdentifier kind value maxResourceSlugLen with
  | .ok () => .ok ⟨value, h⟩
  | .error error => .error error

/-- Top-level customer resource. -/
structure Organization where
  id : OrganizationId
  name : ResourceName
  slug : Slug "organization slug"
  lifecycle : ResourceLifecycleState
  timestamps : ResourceTimestamps
  deriving DecidableEq

def Organization.new (id : OrganizationId) (name slug : String)
    (lifecycle : ResourceLifecycleState) (timestamps : ResourceTimestamps) :
    Except ControlPlaneDomainError Organization := do
  let name ← ResourceName.normalize name
  let slug ← Slug.new "organization slug" slug
  pure ⟨id, name, slug, lifecycle, timestamps⟩

/-- Isolation resource within one organization. -/
structure Project where
  id : ProjectId
  organizationId : OrganizationId
  name : ResourceName
  slug : Slug "project slug"
  lifecycle : ResourceLifecycleState
  timestamps : ResourceTimestamps
  deriving DecidableEq

def Project.new (id : ProjectId) (organizationId : OrganizationId) (name slug : String)
    (lifecycle : ResourceLifecycleState) (timestamps : ResourceTimestamps) :
    Except ControlPlaneDomainError Project := do
  let name ← ResourceName.normalize name
  let slug ← Slug.new "project slug" slug
  pure ⟨id, organizationId, name, slug, lifecycle, timestamps⟩

theorem Organization.new_ok {id : OrganizationId} {name slug : String}
    {lifecycle : ResourceLifecycleState} {timestamps : ResourceTimestamps}
    {organization : Organization} (h : Organization.new id name slug lifecycle timestamps =
      .ok organization) : organization.id = id ∧ organization.lifecycle = lifecycle := by
  obtain ⟨resourceName, -, h⟩ := except_bind_ok.mp h
  obtain ⟨resourceSlug, -, h⟩ := except_bind_ok.mp h
  cases h
  exact ⟨rfl, rfl⟩

theorem Organization.new_slug {id : OrganizationId} {name slug : String}
    {lifecycle : ResourceLifecycleState} {timestamps : ResourceTimestamps}
    {organization : Organization} (h : Organization.new id name slug lifecycle timestamps =
      .ok organization) : organization.slug.asStr = slug := by
  obtain ⟨resourceName, -, h⟩ := except_bind_ok.mp h
  obtain ⟨resourceSlug, hslug, h⟩ := except_bind_ok.mp h
  cases h
  unfold Slug.new at hslug
  split at hslug
  · cases hslug
    rfl
  · cases hslug

theorem Project.new_ok {id : ProjectId} {organizationId : OrganizationId} {name slug : String}
    {lifecycle : ResourceLifecycleState} {timestamps : ResourceTimestamps} {project : Project}
    (h : Project.new id organizationId name slug lifecycle timestamps = .ok project) :
    project.id = id ∧ project.organizationId = organizationId ∧ project.lifecycle = lifecycle := by
  obtain ⟨resourceName, -, h⟩ := except_bind_ok.mp h
  obtain ⟨resourceSlug, -, h⟩ := except_bind_ok.mp h
  cases h
  exact ⟨rfl, rfl, rfl⟩

end Ketebe
