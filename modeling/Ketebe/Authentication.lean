import Ketebe.Collection
import Ketebe.Scope

/-!
Authenticated principals. A workload credential is pinned to one project, other
principals select the project of a request.
-/
namespace Ketebe

theorem isWhitespace_of_isIdentifierCharacter {character : Char}
    (h : isIdentifierCharacter character = true) : isWhitespace character = false := by
  have hletter {a b : Char} : a ≤ b ↔ a.toNat ≤ b.toNat := by
    rw [Char.le_def, UInt32.le_iff_toNat_le]
    rfl
  have hminus : '-'.toNat = 45 := rfl
  have hunderscore : '_'.toNat = 95 := rfl
  have ha : 'a'.toNat = 97 := rfl
  have hz : 'z'.toNat = 122 := rfl
  have hzero : '0'.toNat = 48 := rfl
  have hnine : '9'.toNat = 57 := rfl
  simp only [isIdentifierCharacter, Bool.or_eq_true, Bool.and_eq_true, decide_eq_true_eq,
    beq_iff_eq, hletter] at h
  have hrange : character.toNat = 45 ∨ 48 ≤ character.toNat ∧ character.toNat ≤ 122 := by
    rcases h with ((h | h) | rfl) | rfl <;> omega
  simp only [isWhitespace, Bool.or_eq_false_iff, Bool.and_eq_false_iff, decide_eq_false_iff_not,
    beq_eq_false_iff_ne]
  omega

/-- Trimming leaves a valid identifier as it is. -/
theorem trim_of_validateIdentifier {kind value : String} {max : ℕ}
    (h : validateIdentifier kind value max = .ok ()) : trim value = value := by
  have hcharacters := (characters_of_validateIdentifier h).2
  have hspace : ∀ character ∈ value.toList, isWhitespace character = false := fun character hmem =>
    isWhitespace_of_isIdentifierCharacter (hcharacters character hmem)
  have hfront : value.toList.dropWhile isWhitespace = value.toList := by
    rw [List.dropWhile_eq_self_iff]
    intro hpos
    rw [hspace _ (List.getElem_mem hpos)]
    exact Bool.false_ne_true
  have hback : value.toList.rdropWhile isWhitespace = value.toList := by
    rw [List.rdropWhile_eq_self_iff]
    intro hne
    rw [hspace _ (List.getLast_mem hne)]
    exact Bool.false_ne_true
  rw [trim, hfront, hback, String.ofList_toList]

theorem ProjectId.trim_ne_empty (id : ProjectId) : trim id.asStr ≠ "" := by
  rw [trim_of_validateIdentifier id.valid]
  exact (characters_of_validateIdentifier id.valid).1

inductive PrincipalKind where
  | development
  | credential
  | workloadCredential
  deriving DecidableEq, Repr

inductive ProjectRole where
  | reader
  | editor
  | owner
  deriving DecidableEq, Repr

structure Principal where
  subject : String
  kind : PrincipalKind
  workloadProjectId : Option String
  workloadProjectRole : Option ProjectRole
  deriving DecidableEq, Repr

inductive AuthenticationError where
  | missingCredential
  | invalidCredential
  | invalidPrincipal
  deriving DecidableEq, Repr

namespace Principal

def new (subject : String) (kind : PrincipalKind) : Except AuthenticationError Principal :=
  if trim subject = "" then .error .invalidPrincipal else .ok ⟨subject, kind, none, none⟩

def forWorkloadProject (subject projectId : String) : Except AuthenticationError Principal := do
  let principal ← new subject .workloadCredential
  if trim projectId = "" then .error .invalidPrincipal
  else pure { principal with workloadProjectId := some projectId }

def forWorkloadProjectWithRole (subject projectId : String) (role : ProjectRole) :
    Except AuthenticationError Principal := do
  let principal ← forWorkloadProject subject projectId
  pure { principal with workloadProjectRole := some role }

def development : Principal := ⟨"development", .development, some "default", none⟩

end Principal

end Ketebe
