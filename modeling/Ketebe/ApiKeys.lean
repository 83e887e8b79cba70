import Ketebe.Authentication
import Std.Data.ExtTreeMap

/-!
API keys. A key is bound to a project, and to a service account when it acts for one.
What is stored of its secret is a salted digest.
-/
namespace Ketebe

structure ApiKeyMetadata where
  id : String
  projectId : String
  serviceAccountId : Option String
  createdAtUnix : ℕ
  updatedAtUnix : ℕ
  expiresAtUnix : Option ℕ
  revokedAtUnix : Option ℕ
  deriving DecidableEq

structure IssuedApiKey where
  metadata : ApiKeyMetadata
  credential : String
  deriving DecidableEq

inductive ApiKeyError where
  | io
  | unsupportedVersion (version : ℕ)
  | invalidProject
  | projectNotFound
  | projectUnavailable
  | controlPlane (message : String)
  | serviceAccount (message : String)
  | notFound
  | revoked
  | expired
  | entropyUnavailable
  deriving DecidableEq, Repr

structure StoredKey where
  metadata : ApiKeyMetadata
  salt : List UInt8
  verifier : List UInt8

def apiKeyStoreVersion : ℕ := 1

structure ApiKeyFile where
  version : ℕ
  keys : Std.ExtTreeMap String StoredKey compare

inductive ApiKeyChange where
  | put (id : String) (key : StoredKey)

/-- What a new credential takes from the random source, with the texts encoded. -/
structure KeyEntropy where
  id : String
  secret : String
  salt : List UInt8

namespace ApiKeyFile

def default : ApiKeyFile := ⟨apiKeyStoreVersion, ∅⟩

def apply (file : ApiKeyFile) : ApiKeyChange → ApiKeyFile
  | .put id key => { file with keys := file.keys.insert id key }

end ApiKeyFile

def keyPrefix : String := "ktb_"

def token (id secret : String) : String := keyPrefix ++ id ++ "." ++ secret

/-- The id and the secret of a token. -/
def parseToken (token : String) : Option (String × String) := do
  let rest ← keyPrefix.toList.isPrefixOf? token.toList
  let id := rest.takeWhile (· ≠ '.')
  match rest.dropWhile (· ≠ '.') with
  | [] => none
  | _ :: secret => if id = [] ∨ secret = [] then none else some (String.ofList id, String.ofList secret)

def validateActive (metadata : ApiKeyMetadata) (now : ℕ) : Except ApiKeyError Unit :=
  if metadata.revokedAtUnix.isSome then .error .revoked
  else if metadata.expiresAtUnix.any fun expires => expires ≤ now then .error .expired
  else .ok ()

section Digest

variable (sha256 : List UInt8 → List UInt8)

def digest (salt : List UInt8) (secret : String) : List UInt8 :=
  sha256 (salt ++ secret.toUTF8.data.toList)

def generateCredential (id : String) (entropy : KeyEntropy) : String × List UInt8 × List UInt8 :=
  (token id entropy.secret, entropy.salt, digest sha256 entropy.salt entropy.secret)

end Digest

end Ketebe
