import Ketebe.Identifiers

/-!
Project scopes. A collection that belongs to a project is addressed by the
project and its stable id; artifacts read through a scope must belong to it.
-/
namespace Ketebe

inductive ScopeError where
  | empty (kind : String)
  | tooLong (kind : String) (max actual : ℕ)
  | invalidCharacter (kind : String) (character : Char) (index : ℕ)
  deriving DecidableEq, Repr

def ScopeError.display : ScopeError → String
  | .empty kind => kind ++ " must not be empty"
  | .tooLong kind max actual => kind ++ " exceeds " ++ toString max ++ " bytes: " ++ toString actual
  | .invalidCharacter kind character index =>
      "invalid character '" ++ character.toString ++ "' in " ++ kind ++ " at byte " ++
        toString index

def maxProjectIdLen : ℕ := 128

def maxCollectionNameLen : ℕ := 128

def validateIdentifier (kind value : String) (max : ℕ) : Except ScopeError Unit :=
  if value = "" then .error (.empty kind)
  else if max < value.utf8ByteSize then .error (.tooLong kind max value.utf8ByteSize)
  else match firstInvalidCharacter 0 value.toList with
    | some (character, index) => .error (.invalidCharacter kind character index)
    | none => .ok ()

theorem forall_of_firstInvalidCharacter {index : ℕ} {characters : List Char}
    (h : firstInvalidCharacter index characters = none) :
    ∀ character ∈ characters, isIdentifierCharacter character = true := by
  induction characters generalizing index with
  | nil => simp
  | cons character rest ih =>
    unfold firstInvalidCharacter at h
    split at h
    · rename_i hcharacter
      simpa using ⟨hcharacter, ih h⟩
    · cases h

/-- A valid identifier is not empty and has only characters of the alphabet. -/
theorem characters_of_validateIdentifier {kind value : String} {max : ℕ}
    (h : validateIdentifier kind value max = .ok ()) :
    value ≠ "" ∧ ∀ character ∈ value.toList, isIdentifierCharacter character = true := by
  unfold validateIdentifier at h
  split at h
  · cases h
  rename_i hempty
  split at h
  · cases h
  split at h
  · cases h
  · rename_i hnone
    exact ⟨hempty, forall_of_firstInvalidCharacter hnone⟩

/-- Stable project identity. -/
structure ProjectId where
  asStr : String
  valid : validateIdentifier "project id" asStr maxProjectIdLen = .ok ()
  deriving DecidableEq

theorem validateIdentifier_projectA :
    validateIdentifier "project id" "project-a" maxProjectIdLen = .ok () := by decide

namespace ProjectId

def new (value : String) : Except ScopeError ProjectId :=
  match h : validateIdentifier "project id" value maxProjectIdLen with
  | .ok () => .ok ⟨value, h⟩
  | .error error => .error error

/-- The scope of the data written before there were projects. -/
def defaultProject : ProjectId := ⟨"default", by decide⟩

end ProjectId

/-- User-visible collection name, resolved within a project. -/
structure CollectionName where
  asStr : String
  valid : validateIdentifier "collection name" asStr maxCollectionNameLen = .ok ()
  deriving DecidableEq

theorem validateIdentifier_docs :
    validateIdentifier "collection name" "docs" maxCollectionNameLen = .ok () := by decide

namespace CollectionName

def new (value : String) : Except ScopeError CollectionName :=
  match h : validateIdentifier "collection name" value maxCollectionNameLen with
  | .ok () => .ok ⟨value, h⟩
  | .error error => .error error

end CollectionName

/-- Canonical immutable scope of a data-plane operation. -/
structure DataPlaneScope where
  projectId : ProjectId
  collectionId : CollectionId
  deriving DecidableEq

def DataPlaneScope.legacyDefault (collectionId : CollectionId) : DataPlaneScope :=
  ⟨.defaultProject, collectionId⟩

end Ketebe
