import Ketebe.Authentication
import Ketebe.Collection
import Std.Data.ExtTreeMap

/-!
Service accounts. An account holds a role in every project that it is assigned to.
Ids follow the rules of project ids.
-/
namespace Ketebe

inductive ServiceAccountError where
  | invalidId
  | invalidName
  | notFound
  | disabled
  | projectNotFound
  | projectUnavailable
  | assignmentNotFound
  | alreadyExists
  | io
  | unsupportedVersion (version : ℕ)
  deriving DecidableEq, Repr

/-- The texts of the source's `Display`; that of an I/O error ends in the system's own. -/
def ServiceAccountError.display : ServiceAccountError → String
  | .invalidId => "invalid service account id"
  | .invalidName => "service account name must not be empty"
  | .notFound => "service account not found"
  | .disabled => "service account is disabled"
  | .projectNotFound => "project not found"
  | .projectUnavailable => "project is not active"
  | .assignmentNotFound => "service account project assignment not found"
  | .alreadyExists => "service account already exists"
  | .io => "service account I/O error: "
  | .unsupportedVersion version =>
      "unsupported service account store version " ++ toString version

structure ServiceAccountId where
  asStr : String
  valid : validateIdentifier "project id" asStr maxProjectIdLen = .ok ()

theorem ServiceAccountId.asStr_inj {a b : ServiceAccountId} : a.asStr = b.asStr ↔ a = b := by
  obtain ⟨asStr, valid⟩ := a
  constructor
  · rintro rfl
    rfl
  · rintro rfl
    rfl

instance : DecidableEq ServiceAccountId := fun _ _ => decidable_of_iff _ ServiceAccountId.asStr_inj

def ServiceAccountId.new (value : String) : Except ServiceAccountError ServiceAccountId :=
  match ProjectId.new value with
  | .ok id => .ok ⟨id.asStr, id.valid⟩
  | .error _ => .error .invalidId

inductive ServiceAccountLifecycle where
  | active
  | disabled
  deriving DecidableEq, Repr

structure ServiceAccount where
  id : ServiceAccountId
  name : String
  lifecycle : ServiceAccountLifecycle
  createdAtUnix : ℕ
  updatedAtUnix : ℕ
  assignments : Std.ExtTreeMap String ProjectRole compare

def ServiceAccount.new (id : ServiceAccountId) (name : String) (now : ℕ) :
    Except ServiceAccountError ServiceAccount :=
  if trim name = "" then .error .invalidName
  else .ok ⟨id, trim name, .active, now, now, ∅⟩

def serviceAccountStoreVersion : ℕ := 1

structure ServiceAccountFile where
  version : ℕ
  accounts : Std.ExtTreeMap String ServiceAccount compare

inductive ServiceAccountChange where
  | put (id : ServiceAccountId) (account : ServiceAccount)
  | remove (id : ServiceAccountId)

namespace ServiceAccountFile

def default : ServiceAccountFile := ⟨serviceAccountStoreVersion, ∅⟩

def apply (file : ServiceAccountFile) : ServiceAccountChange → ServiceAccountFile
  | .put id account => { file with accounts := file.accounts.insert id.asStr account }
  | .remove id => { file with accounts := file.accounts.erase id.asStr }

def account (file : ServiceAccountFile) (id : ServiceAccountId) :
    Except ServiceAccountError ServiceAccount :=
  match file.accounts[id.asStr]? with
  | none => .error .notFound
  | some account => .ok account

/-! ### Operations -/

section Operations

variable (file : ServiceAccountFile) (id : ServiceAccountId) (now : ℕ)

def create (name : String) : Except ServiceAccountError ServiceAccount := do
  let account ← ServiceAccount.new id name now
  if id.asStr ∈ file.accounts then .error .alreadyExists else pure account

def setLifecycle (lifecycle : ServiceAccountLifecycle) :
    Except ServiceAccountError ServiceAccount := do
  let current ← file.account id
  pure { current with lifecycle, updatedAtUnix := now }

def assignProject (projectId : ProjectId) (role : ProjectRole) :
    Except ServiceAccountError ServiceAccount := do
  let current ← file.account id
  pure { current with
    assignments := current.assignments.insert projectId.asStr role, updatedAtUnix := now }

def removeProjectAssignment (projectId : ProjectId) :
    Except ServiceAccountError ServiceAccount := do
  let current ← file.account id
  if projectId.asStr ∉ current.assignments then .error .assignmentNotFound
  else pure { current with
    assignments := current.assignments.erase projectId.asStr, updatedAtUnix := now }

end Operations

end ServiceAccountFile

end Ketebe
