import Ketebe.ControlPlaneRuns
import Ketebe.ControlPlaneUpdates
import Ketebe.Grants
import Ketebe.SecurityStores

/-!
The life of an API key. Over all the creations, rotations, revocations and restarts of
a run the server accepts exactly the credential that was issued last for a key, until
the key is revoked or expires, and only while its project and its account are active.
-/
namespace Ketebe

/-! ### Tokens -/

section Tokens

variable {id secret text : String}

theorem isPrefixOf?_eq_some_iff {α : Type} [DecidableEq α] {front whole rest : List α} :
    front.isPrefixOf? whole = some rest ↔ whole = front ++ rest := by
  induction front generalizing whole with
  | nil => simp [List.isPrefixOf?]
  | cons first front ih =>
    cases whole with
    | nil => simp [List.isPrefixOf?]
    | cons head whole =>
      rw [List.isPrefixOf?, List.cons_append, List.cons.injEq]
      by_cases hsame : first = head
      · simp only [hsame, beq_self_eq_true, if_true, true_and, ih]
      · simp only [beq_eq_false_iff_ne.mpr hsame, Bool.false_eq_true, if_false, Ne.symm hsame,
          false_and, reduceCtorEq]

theorem toList_token : (token id secret).toList =
    keyPrefix.toList ++ (id.toList ++ '.' :: secret.toList) := by
  have hdot : ".".toList = ['.'] := rfl
  rw [token, String.toList_append, String.toList_append, String.toList_append, hdot,
    List.append_assoc, List.append_assoc, List.singleton_append]

/-- A token is read back if its id has no separator. -/
theorem parseToken_token (hdot : '.' ∉ id.toList) (hid : id ≠ "") (hsecret : secret ≠ "") :
    parseToken (token id secret) = some (id, secret) := by
  have hno : ∀ character ∈ id.toList, decide (character ≠ '.') = true := by
    intro character hmem
    exact decide_eq_true fun hsame => hdot (hsame ▸ hmem)
  have hprefix : keyPrefix.toList.isPrefixOf? (token id secret).toList =
      some (id.toList ++ '.' :: secret.toList) := isPrefixOf?_eq_some_iff.mpr toList_token
  have htake : (id.toList ++ '.' :: secret.toList).takeWhile (· ≠ '.') = id.toList := by
    rw [List.takeWhile_append_of_pos hno, List.takeWhile_cons_of_neg (by simp), List.append_nil]
  have hdrop : (id.toList ++ '.' :: secret.toList).dropWhile (· ≠ '.') = '.' :: secret.toList := by
    rw [List.dropWhile_append_of_pos hno, List.dropWhile_cons_of_neg (by simp)]
  have hempty : ¬(id.toList = [] ∨ secret.toList = []) := by
    rw [String.toList_eq_nil_iff, String.toList_eq_nil_iff]
    exact not_or.mpr ⟨hid, hsecret⟩
  rw [parseToken, hprefix, Option.bind_eq_bind, Option.bind_some, htake, hdrop]
  show (if id.toList = [] ∨ secret.toList = [] then none else _) = _
  rw [if_neg hempty, String.ofList_toList, String.ofList_toList]

/-- What was read as an id and a secret is the token of the two. -/
theorem token_of_parseToken (h : parseToken text = some (id, secret)) : text = token id secret := by
  unfold parseToken at h
  obtain ⟨rest, hprefix, h⟩ := Option.bind_eq_some_iff.mp h
  dsimp only at h
  split at h
  · cases h
  · rename_i character after hafter
    split at h
    · cases h
    · cases h
      have hdot : character = '.' := by
        have hhead := List.head?_dropWhile_not (fun c : Char => decide (c ≠ '.')) rest
        rw [hafter] at hhead
        simpa using hhead
      rw [hdot] at hafter
      apply String.toList_inj.mp
      rw [toList_token, String.toList_ofList, String.toList_ofList,
        isPrefixOf?_eq_some_iff.mp hprefix, ← hafter, List.takeWhile_append_dropWhile]

theorem digest_injective {sha256 : List UInt8 → List UInt8} (hsha : Function.Injective sha256)
    {salt : List UInt8} {other : String}
    (h : digest sha256 salt secret = digest sha256 salt other) : secret = other := by
  have hbytes := List.append_cancel_left (hsha h)
  have harray : secret.toUTF8.data = other.toUTF8.data := Array.toList_inj.mp hbytes
  have hutf8 : secret.toUTF8 = other.toUTF8 := by
    cases hs : secret.toUTF8
    cases ho : other.toUTF8
    simp_all
  exact String.toByteArray_inj.mp hutf8

/-- Something is left of a text that is trimmed. -/
theorem trim_append_ne_empty {front rest : String} {character : Char}
    (hmem : character ∈ front.toList) (hspace : isWhitespace character = false) :
    trim (front ++ rest) ≠ "" := by
  intro hempty
  have hall : (front ++ rest).toList.dropWhile isWhitespace = [] := by
    have hempty : ((front ++ rest).toList.dropWhile isWhitespace).rdropWhile isWhitespace = [] :=
      String.ofList_eq_empty_iff.mp hempty
    cases hrest : (front ++ rest).toList.dropWhile isWhitespace with
    | nil => rfl
    | cons first others =>
      have hhead := List.head?_dropWhile_not isWhitespace (front ++ rest).toList
      rw [hrest] at hempty hhead
      have hfirst : isWhitespace first = true :=
        List.rdropWhile_eq_nil_iff.mp hempty first List.mem_cons_self
      rw [List.head?_cons] at hhead
      exact absurd hfirst (by simpa using hhead)
  have hwhite := List.dropWhile_eq_nil_iff.mp hall character (by
    rw [String.toList_append]
    exact List.mem_append_left _ hmem)
  exact absurd hwhite (by rw [hspace]; exact Bool.false_ne_true)

end Tokens

namespace ControlPlane

open Lib.ByteCodec Lib.WholeFiles Lib.WholeFiles.Task Lib.Durable Lib.Durable.Program
  Lib.CachedFile Lib.Runs

/-! ### What the checks answer -/

/-- The role that the account of a key holds in the project of the key. -/
def BoundRole (files : Files) (metadata : ApiKeyMetadata) (role : Option ProjectRole) : Prop :=
  match metadata.serviceAccountId with
  | none => role = none
  | some id => ∃ account assigned, (files .serviceAccounts).accounts[id]? = some account ∧
      account.lifecycle = .active ∧ account.assignments[metadata.projectId]? = some assigned ∧
      role = some assigned

def ActiveProject (files : Files) (projectId : String) : Prop :=
  ∃ project, (files .store).projects[projectId]? = some project ∧ project.lifecycle = .active

/-- The principal of a key carries its project and the role of its account. -/
def principalOf (metadata : ApiKeyMetadata) (role : Option ProjectRole) : Principal :=
  ⟨match metadata.serviceAccountId with
    | none => "api-key:" ++ metadata.id
    | some account => "service-account:" ++ account, .workloadCredential, some metadata.projectId,
    role⟩

section Checks

variable {files : Files} {metadata : ApiKeyMetadata} {principal : Principal}
  {role : Option ProjectRole}

/-- The ids of a key were valid when it was issued. -/
structure Checked (metadata : ApiKeyMetadata) : Prop where
  project : ∃ id : ProjectId, id.asStr = metadata.projectId
  account : ∀ account ∈ metadata.serviceAccountId, ∃ id : ServiceAccountId, id.asStr = account

/-- A project resolves to itself and its organization. -/
theorem answer_resolveProject (id : ProjectId) :
    (resolveProject id.asStr).answer applyChange files =
      ((files .store).project id).elim (.error .projectNotFound) fun project =>
        (((files .store).resolveProjectOrganization id).mapError fun error =>
          ApiKeyError.controlPlane error.display).map (Prod.mk project) := by
  rw [resolveProject, ProjectId.new_asStr]
  show Task.answer applyChange files (openStore >>= _) = _
  rw [answer_openStore]
  cases (files .store).project id with
  | none => rfl
  | some project => cases (files .store).resolveProjectOrganization id <;> rfl

theorem resolveProjectOrganization_ok (hparented : (files .store).Parented) {id : ProjectId}
    {project : Project} (hproject : (files .store).project id = some project) :
    ∃ organization, (files .store).resolveProjectOrganization id = .ok organization := by
  obtain ⟨organization, horganization⟩ := Option.isSome_iff_exists.mp
    (Std.ExtTreeMap.mem_iff_isSome_getElem?.mp (hparented id.asStr project hproject))
  refine ⟨organization, ?_⟩
  rw [ControlPlaneState.resolveProjectOrganization, hproject]
  dsimp only
  rw [ControlPlaneState.organization, horganization]

theorem resolveActiveProject_ok_iff (hparented : (files .store).Parented) (id : ProjectId) :
    (∃ resolved, ask files (resolveActiveProject id.asStr) = .ok resolved) ↔
      ActiveProject files id.asStr := by
  rw [ask, resolveActiveProject, readOnly_resolveProject.answer_bind, answer_resolveProject]
  cases hproject : (files .store).project id with
  | none =>
    constructor
    · rintro ⟨_, h⟩
      cases h
    · rintro ⟨project, hsome, -⟩
      cases hproject.symm.trans hsome
  | some project =>
    obtain ⟨organization, hresolve⟩ := resolveProjectOrganization_ok hparented hproject
    rw [hresolve]
    show (∃ resolved, Task.answer applyChange files (ite _ _ _) = .ok resolved) ↔ _
    by_cases hactive : project.lifecycle = .active
    · rw [if_neg (not_not.mpr hactive)]
      exact ⟨fun _ => ⟨project, hproject, hactive⟩, fun _ => ⟨_, rfl⟩⟩
    · rw [if_pos hactive]
      constructor
      · rintro ⟨_, h⟩
        cases h
      · rintro ⟨other, hsome, hlifecycle⟩
        cases hproject.symm.trans hsome
        exact absurd hlifecycle hactive

theorem answer_openServiceAccounts
    (hversion : (files .serviceAccounts).version = serviceAccountStoreVersion) :
    openServiceAccounts.answer applyChange files = .ok (files .serviceAccounts) := by
  show Task.answer applyChange files (ite _ _ _) = _
  rw [if_neg (not_not.mpr hversion)]
  rfl

theorem authorizeServiceAccount_ok_iff
    (hversion : (files .serviceAccounts).version = serviceAccountStoreVersion)
    (id : ServiceAccountId) {projectId : ProjectId} (hproject : ActiveProject files projectId.asStr)
    {assigned : ProjectRole} :
    ask files (authorizeServiceAccount id projectId) = .ok assigned ↔
      ∃ account, (files .serviceAccounts).accounts[id.asStr]? = some account ∧
        account.lifecycle = .active ∧ account.assignments[projectId.asStr]? = some assigned := by
  have hensure : (ensureActiveProject projectId).answer applyChange files = .ok () := by
    obtain ⟨project, hfound, hactive⟩ := hproject
    rw [ensureActiveProject, answer_openStore, ControlPlaneState.project, hfound]
    exact congrArg (Task.answer applyChange files) (if_neg (not_not.mpr hactive))
  have haccount : (files .serviceAccounts).account id =
      ((files .serviceAccounts).accounts[id.asStr]?).elim (.error .notFound) .ok := by
    rw [ServiceAccountFile.account]
    cases (files .serviceAccounts).accounts[id.asStr]? <;> rfl
  unfold authorizeServiceAccount
  rw [ask, readOnly_openServiceAccounts.answer_bind, answer_openServiceAccounts hversion, except_ok_bind,
    (readOnly_lift _).answer_bind, haccount]
  cases (files .serviceAccounts).accounts[id.asStr]? with
  | none =>
    constructor
    · intro h
      cases h
    · rintro ⟨account, h, -⟩
      cases h
  | some account =>
    show Task.answer applyChange files (ite _ _ _) = .ok assigned ↔ _
    by_cases hactive : account.lifecycle = .active
    · rw [if_neg (not_not.mpr hactive), readOnly_ensureActiveProject.answer_bind, hensure,
        except_ok_bind]
      cases hassigned : account.assignments[projectId.asStr]? with
      | none =>
        constructor
        · intro h
          cases h
        · rintro ⟨_, ⟨⟩, -, h⟩
          cases hassigned.symm.trans h
      | some other =>
        constructor
        · intro h
          cases h
          exact ⟨account, rfl, hactive, hassigned⟩
        · rintro ⟨_, ⟨⟩, -, h⟩
          cases hassigned.symm.trans h
          rfl
    · rw [if_pos hactive]
      constructor
      · intro h
        cases h
      · rintro ⟨_, ⟨⟩, h, -⟩
        exact absurd h hactive

theorem resolveServiceAccountRole_ok_iff
    (hversion : (files .serviceAccounts).version = serviceAccountStoreVersion)
    (hchecked : Checked metadata) (hproject : ActiveProject files metadata.projectId) :
    ask files (resolveServiceAccountRole metadata) = .ok role ↔ BoundRole files metadata role := by
  obtain ⟨projectId, hprojectId⟩ := hchecked.project
  unfold resolveServiceAccountRole BoundRole
  rw [← hprojectId] at hproject ⊢
  cases haccount : metadata.serviceAccountId with
  | none =>
    constructor
    · intro h
      cases h
      rfl
    · rintro rfl
      rfl
  | some account =>
    obtain ⟨id, rfl⟩ := hchecked.account account haccount
    have hid : ServiceAccountId.new id.asStr = .ok id := by
      unfold ServiceAccountId.new
      rw [ProjectId.new_asStr ⟨id.asStr, id.valid⟩]
    have hrole (assigned : ProjectRole) :
        ask files (authorizeServiceAccount id projectId) = .ok assigned ↔ _ :=
      authorizeServiceAccount_ok_iff hversion id hproject
    have hanswer : ask files ((authorizeServiceAccount id projectId).mapError serviceAccountError
        >>= fun role => pure (some role)) =
          (ask files (authorizeServiceAccount id projectId)).mapError serviceAccountError >>=
            fun role => pure (some role) := by
      rw [ask, readOnly_authorizeServiceAccount.mapError.answer_bind, answer_mapError]
      rfl
    dsimp only
    rw [hid, ProjectId.new_asStr]
    show ask files ((authorizeServiceAccount id projectId).mapError serviceAccountError
      >>= fun role => pure (some role)) = .ok role ↔ _
    rw [hanswer, except_bind_ok]
    constructor
    · rintro ⟨assigned, hassigned, ⟨⟩⟩
      obtain ⟨account, hfound, hactive, hin⟩ := (hrole assigned).mp (mapError_ok_iff.mp hassigned)
      exact ⟨account, assigned, hfound, hactive, hin, rfl⟩
    · rintro ⟨account, assigned, hfound, hactive, hin, rfl⟩
      exact ⟨assigned, mapError_ok_iff.mpr ((hrole assigned).mpr ⟨account, hfound, hactive, hin⟩),
        rfl⟩

theorem keyPrincipal_ok_iff (hchecked : Checked metadata) (hrole : BoundRole files metadata role) :
    keyPrincipal metadata role = .ok principal ↔ principal = principalOf metadata role := by
  obtain ⟨projectId, hprojectId⟩ := hchecked.project
  have hworkload {front rest : String} (character : Char) (hmem : character ∈ front.toList)
      (hspace : isWhitespace character = false) :
      Principal.forWorkloadProject (front ++ rest) metadata.projectId =
        .ok ⟨front ++ rest, .workloadCredential, some metadata.projectId, none⟩ := by
    unfold Principal.forWorkloadProject Principal.new
    rw [if_neg (trim_append_ne_empty hmem hspace), except_ok_bind,
      if_neg (hprojectId ▸ projectId.trim_ne_empty)]
    rfl
  unfold BoundRole at hrole
  unfold principalOf keyPrincipal
  cases haccount : metadata.serviceAccountId with
  | none =>
    rw [haccount] at hrole
    obtain rfl := hrole
    dsimp only
    rw [hworkload 'a' (by decide) (by decide), Except.ok.injEq, eq_comm]
  | some account =>
    rw [haccount] at hrole
    obtain ⟨_, assigned, -, -, -, rfl⟩ := hrole
    dsimp only
    unfold Principal.forWorkloadProjectWithRole
    rw [hworkload 's' (by decide) (by decide), except_ok_bind, Option.getD_some]
    show Except.ok _ = .ok principal ↔ _
    rw [Except.ok.injEq, eq_comm]

theorem authenticateToken_ok_iff {sha256 : List UInt8 → List UInt8} {now : ℕ}
    {file : ApiKeyFile} {text : String} :
    ApiKeyStore.authenticateToken sha256 now files file text = .ok principal ↔
      ∃ id secret key role, parseToken text = some (id, secret) ∧ file.keys[id]? = some key ∧
        validateActive key.metadata now = .ok () ∧
        (∃ resolved, ask files (resolveActiveProject key.metadata.projectId) = .ok resolved) ∧
        ask files (resolveServiceAccountRole key.metadata) = .ok role ∧
        key.verifier = digest sha256 key.salt secret ∧
        keyPrincipal key.metadata role = .ok principal := by
  unfold ApiKeyStore.authenticateToken
  cases hparse : parseToken text with
  | none =>
    constructor
    · intro h
      cases h
    · rintro ⟨_, _, _, _, ⟨⟩, -⟩
  | some parsed =>
    obtain ⟨id, secret⟩ := parsed
    constructor
    · intro h
      obtain ⟨key, hkey, h⟩ := except_bind_ok.mp h
      obtain ⟨_, hactive, h⟩ := except_bind_ok.mp h
      obtain ⟨resolved, hproject, h⟩ := except_bind_ok.mp h
      obtain ⟨role, hrole, h⟩ := except_bind_ok.mp h
      split at h
      · cases h
      · rename_i hverifier
        exact ⟨id, secret, key, role, rfl, storedKey_ok_iff.mp (mapError_ok_iff.mp hkey),
          mapError_ok_iff.mp hactive, ⟨resolved, mapError_ok_iff.mp hproject⟩,
          mapError_ok_iff.mp hrole, not_not.mp hverifier, h⟩
    · rintro ⟨_, _, key, role, ⟨⟩, hkey, hactive, ⟨resolved, hproject⟩, hrole, hverifier, h⟩
      refine except_bind_ok.mpr ⟨key, mapError_ok_iff.mpr (storedKey_ok_iff.mpr hkey), ?_⟩
      refine except_bind_ok.mpr ⟨(), mapError_ok_iff.mpr hactive, ?_⟩
      refine except_bind_ok.mpr ⟨resolved, mapError_ok_iff.mpr hproject, ?_⟩
      refine except_bind_ok.mpr ⟨role, mapError_ok_iff.mpr hrole, ?_⟩
      rw [if_neg (not_not.mpr hverifier)]
      exact h

end Checks

/-! ### Runs -/

/-- What a call has returned. -/
inductive KeyRecord where
  | issued (key : IssuedApiKey)
  | revoked (id : String)
  deriving DecidableEq

def KeyRecord.id : KeyRecord → String
  | .issued key => key.metadata.id
  | .revoked id => id

/-- The key store, the files of the other services and what has been returned so far. -/
structure KeyRing where
  keys : Cached ApiKeyFile
  files : Files
  history : List KeyRecord

/-- A call of the key store or of another service at some time, or a restart. -/
inductive KeyEvent where
  | call (now : ℕ) (call : ApiKeyCall)
  | account (now : ℕ) (call : ServiceAccountCall)
  | controlPlane (request : ControlPlaneStore.Request)
  | restart

namespace KeyRing

variable (sha256 : List UInt8 → List UInt8)

/-- A call with what it returns. -/
def respond (now : ℕ) (files : Files) : ApiKeyCall → KeyProgram KeyRecord
  | .create projectId expiresAtUnix entropy => do
      let issued ← ApiKeyStore.create sha256 now files projectId expiresAtUnix entropy
      pure (.issued issued)
  | .createForServiceAccount account projectId expiresAtUnix entropy => do
      let issued ← ApiKeyStore.createForServiceAccount sha256 now files account projectId
        expiresAtUnix entropy
      pure (.issued issued)
  | .revoke id => do
      let _ ← ApiKeyStore.revoke now id
      pure (.revoked id)
  | .rotate id entropy => do
      let issued ← ApiKeyStore.rotate sha256 now files id entropy
      pure (.issued issued)

/-- The control-plane store after an operation. -/
def planned (store : ControlPlaneState) (request : ControlPlaneStore.Request) : ControlPlaneState :=
  match ControlPlaneStore.plan store request with
  | .ok (some change) => store.apply change
  | .ok none | .error _ => store

/-- Nothing fails in the file system. -/
def step (ring : KeyRing) : KeyEvent → KeyRing
  | .call now call =>
      match (respond sha256 now ring.files call).run ring.keys [] with
      | (.ok record, world) => ⟨world.state, ring.files, ring.history ++ [record]⟩
      | (_, world) => { ring with keys := world.state }
  | .account now call => { ring with files := ((call.task now).finish applyChange ring.files).1 }
  | .controlPlane request =>
      { ring with files := Function.update ring.files .store (planned (ring.files .store) request) }
  | .restart => { ring with keys := Cached.reopen .default ring.keys.disk }

/-- A server on an empty directory. -/
def opened : KeyRing := ⟨Cached.reopen .default none, Files.empty, []⟩

/-- The credential that was issued last for a key. -/
def latest (history : List KeyRecord) (id : String) : Option IssuedApiKey :=
  history.reverse.findSome? fun
    | .issued key => if key.metadata.id = id then some key else none
    | .revoked _ => none

/-- What the random source is relied on for: ids are new and contain no separator, and
nothing that it generates is empty. -/
def Generated (ring : KeyRing) : KeyEvent → Prop
  | .call _ (.create _ _ (some entropy)) | .call _ (.createForServiceAccount _ _ _ (some entropy)) =>
      latest ring.history entropy.id = none ∧ '.' ∉ entropy.id.toList ∧ entropy.id ≠ "" ∧
        entropy.secret ≠ ""
  | .call _ (.rotate _ (some entropy)) => entropy.secret ≠ ""
  | _ => True

/-! ### What is accepted -/

/-- The token is the last one of a key that is neither revoked nor expired, and whose
project and account are active. -/
def Accepted (ring : KeyRing) (now : ℕ) (token : String) (principal : Principal) : Prop :=
  ∃ issued role, latest ring.history issued.metadata.id = some issued ∧ token = issued.credential ∧
    KeyRecord.revoked issued.metadata.id ∉ ring.history ∧
    (∀ expires ∈ issued.metadata.expiresAtUnix, now < expires) ∧
    ActiveProject ring.files issued.metadata.projectId ∧
    BoundRole ring.files issued.metadata role ∧ principal = principalOf issued.metadata role

end KeyRing

/-! ### What a call does -/

/-- The random values that a call generates. -/
def ApiKeyCall.entropy : ApiKeyCall → Option KeyEntropy
  | .create _ _ entropy | .createForServiceAccount _ _ _ entropy | .rotate _ entropy => entropy
  | .revoke _ => none

/-- The key that a call stores when it succeeds, and what it returns. -/
inductive Effect (sha256 : List UInt8 → List UInt8) (now : ℕ) (file : ApiKeyFile)
    (call : ApiKeyCall) : KeyRecord → String → StoredKey → Prop
  | created (entropy : KeyEntropy) (metadata : ApiKeyMetadata)
      (hcreates : ∀ id, call ≠ .rotate id (some entropy)) (hentropy : call.entropy = some entropy)
      (hid : metadata.id = entropy.id) (hrevoked : metadata.revokedAtUnix = none)
      (hchecked : Checked metadata) :
      Effect sha256 now file call (.issued ⟨metadata, token entropy.id entropy.secret⟩) entropy.id
        ⟨metadata, entropy.salt, digest sha256 entropy.salt entropy.secret⟩
  | revoked (id : String) (key : StoredKey) (hkey : file.keys[id]? = some key) :
      Effect sha256 now file call (.revoked id) id
        { key with metadata := revokedMetadata now key.metadata }
  | rotated (id : String) (key : StoredKey) (entropy : KeyEntropy)
      (hrotates : call = .rotate id (some entropy)) (hkey : file.keys[id]? = some key)
      (hactive : validateActive key.metadata now = .ok ()) :
      Effect sha256 now file call
        (.issued ⟨{ key.metadata with updatedAtUnix := now }, token id entropy.secret⟩) id
        ⟨{ key.metadata with updatedAtUnix := now }, entropy.salt,
          digest sha256 entropy.salt entropy.secret⟩

section Respond

variable {sha256 : List UInt8 → List UInt8} {now : ℕ} {files : Files} {keys : Cached ApiKeyFile}

theorem settles_put {α : Type} {id : String} {key : StoredKey} {value : α}
    {ok : α → Cached ApiKeyFile → Prop}
    (h : ok value (.reopen .default (some (keys.memory.apply (.put id key))))) :
    Settles (ApiKeyStore.put id key >>= fun _ => (pure value : KeyProgram α)) keys ok := by
  unfold Settles
  exact h

/-- A call that succeeds stores one key, in memory and in the file. -/
def Stores (sha256 : List UInt8 → List UInt8) (now : ℕ) (keys : Cached ApiKeyFile)
    (call : ApiKeyCall) (record : KeyRecord) (after : Cached ApiKeyFile) : Prop :=
  ∃ id key, Effect sha256 now keys.memory call record id key ∧
    after = .reopen .default (some (keys.memory.apply (.put id key)))

theorem settles_issue {call : ApiKeyCall} {projectId : String} {account : Option String}
    {expiresAtUnix : Option ℕ}
    (hchecked : ∀ entropy : KeyEntropy, Checked
      ⟨entropy.id, projectId, account, now, now, expiresAtUnix, none⟩)
    (hcreates : ∀ id entropy, call ≠ .rotate id entropy) {entropy : Option KeyEntropy}
    (hentropy : call.entropy = entropy) :
    Settles (ApiKeyStore.issue sha256 now projectId account expiresAtUnix entropy) keys
      fun issued => Stores sha256 now keys call (.issued issued) := by
  unfold ApiKeyStore.issue
  cases entropy with
  | none => exact settles_throw
  | some entropy =>
    refine settles_put ⟨entropy.id, _, .created entropy _ ?_ hentropy rfl rfl ?_, rfl⟩
    · exact fun id => hcreates id (some entropy)
    · exact hchecked entropy

theorem checkProject_ok {requested projectId : String}
    (h : ApiKeyStore.checkProject files requested = .ok projectId) :
    ∃ id : ProjectId, id.asStr = projectId := by
  obtain ⟨normalized, hnormalized, h⟩ := except_bind_ok.mp h
  obtain ⟨_, -, h⟩ := except_bind_ok.mp h
  cases h
  unfold normalizeProject at hnormalized
  split at hnormalized
  · rename_i id hid
    cases hnormalized
    exact ⟨id, rfl⟩
  · cases hnormalized

theorem checkAccount_ok {account : ServiceAccountId} {requested projectId : String}
    (h : ApiKeyStore.checkAccount files account requested = .ok projectId) :
    ∃ id : ProjectId, id.asStr = projectId := by
  obtain ⟨checked, hchecked, h⟩ := except_bind_ok.mp h
  obtain ⟨_, -, h⟩ := except_bind_ok.mp h
  obtain ⟨_, -, h⟩ := except_bind_ok.mp h
  cases h
  exact checkProject_ok hchecked

theorem KeyRing.settles_respond (call : ApiKeyCall) :
    Settles (KeyRing.respond sha256 now files call) keys (Stores sha256 now keys call) := by
  cases call with
  | create projectId expiresAtUnix entropy =>
    have hcreate : Settles (ApiKeyStore.create sha256 now files projectId expiresAtUnix entropy)
        keys fun issued => Stores sha256 now keys (.create projectId expiresAtUnix entropy)
          (.issued issued) := by
      refine settles_check fun checked hcheck => settles_issue (fun _ => ?_)
        (fun _ _ h => by cases h) rfl
      refine ⟨checkProject_ok hcheck, ?_⟩
      rintro _ ⟨⟩
    exact settles_map hcreate
  | createForServiceAccount account projectId expiresAtUnix entropy =>
    have hcreate : Settles (ApiKeyStore.createForServiceAccount sha256 now files account projectId
        expiresAtUnix entropy) keys fun issued => Stores sha256 now keys
          (.createForServiceAccount account projectId expiresAtUnix entropy) (.issued issued) := by
      refine settles_check fun checked hcheck => settles_issue (fun _ => ?_)
        (fun _ _ h => by cases h) rfl
      refine ⟨checkAccount_ok hcheck, ?_⟩
      rintro _ ⟨⟩
      exact ⟨account, rfl⟩
    exact settles_map hcreate
  | revoke id =>
    have hrevoke : Settles (ApiKeyStore.revoke now id) keys fun _ =>
        Stores sha256 now keys (.revoke id) (.revoked id) := by
      refine settles_get (settles_check fun key hkey => ?_)
      exact settles_put ⟨id, _, .revoked id key (storedKey_ok_iff.mp hkey), rfl⟩
    exact settles_map hrevoke
  | rotate id entropy =>
    refine settles_map (settles_get (settles_check fun key hcheck => ?_))
    obtain ⟨_, hkey, hcheck⟩ := except_bind_ok.mp hcheck
    obtain ⟨_, hactive, hcheck⟩ := except_bind_ok.mp hcheck
    obtain ⟨_, -, hcheck⟩ := except_bind_ok.mp hcheck
    obtain ⟨_, -, hcheck⟩ := except_bind_ok.mp hcheck
    cases hcheck
    cases entropy with
    | none => exact settles_throw
    | some entropy =>
      exact settles_put ⟨id, _, .rotated id key entropy rfl (storedKey_ok_iff.mp hkey) hactive, rfl⟩

end Respond

/-! ### What is stored of the history -/

namespace KeyRing

variable {sha256 : List UInt8 → List UInt8} {history : List KeyRecord} {id : String}

theorem latest_append (record : KeyRecord) : latest (history ++ [record]) id = match record with
    | .issued key => if key.metadata.id = id then some key else latest history id
    | .revoked _ => latest history id := by
  unfold latest
  rw [List.reverse_append, List.reverse_singleton, List.singleton_append, List.findSome?_cons]
  cases record with
  | revoked _ => rfl
  | issued key =>
    dsimp only
    by_cases hid : key.metadata.id = id
    · rw [if_pos hid, if_pos hid]
    · rw [if_neg hid, if_neg hid]

/-- The stored key of the credential that was issued last. -/
structure Keeps (sha256 : List UInt8 → List UInt8) (history : List KeyRecord) (id : String)
    (issued : IssuedApiKey) (key : StoredKey) : Prop where
  keyId : key.metadata.id = id
  issuedId : issued.metadata.id = id
  project : key.metadata.projectId = issued.metadata.projectId
  account : key.metadata.serviceAccountId = issued.metadata.serviceAccountId
  expires : key.metadata.expiresAtUnix = issued.metadata.expiresAtUnix
  revoked : key.metadata.revokedAtUnix.isSome ↔ .revoked id ∈ history
  checked : Checked key.metadata
  credential : ∃ secret, secret ≠ "" ∧ issued.credential = token id secret ∧
    key.verifier = digest sha256 key.salt secret
  separated : '.' ∉ id.toList ∧ id ≠ ""

/-- Every key is stored as the history of its id says. -/
def Tracks (sha256 : List UInt8 → List UInt8) (history : List KeyRecord) (file : ApiKeyFile) :
    Prop :=
  ∀ id, match latest history id with
    | none => file.keys[id]? = none ∧ .revoked id ∉ history
    | some issued => ∃ key, file.keys[id]? = some key ∧ Keeps sha256 history id issued key

/-! What one stored key changes of it. -/

theorem Tracks.put {file : ApiKeyFile} (h : Tracks sha256 history file) {record : KeyRecord}
    {key : StoredKey} {issued : IssuedApiKey} (hid : record.id = id)
    (hlatest : latest (history ++ [record]) id = some issued)
    (hkeeps : Keeps sha256 (history ++ [record]) id issued key) :
    Tracks sha256 (history ++ [record]) (file.apply (.put id key)) := by
  subst hid
  intro other
  have hkeys : (file.apply (.put record.id key)).keys[other]? =
      if record.id = other then some key else file.keys[other]? := by
    simp only [ApiKeyFile.apply, Std.ExtTreeMap.getElem?_insert, compare_eq_iff_eq]
  by_cases hsame : record.id = other
  · rw [hkeys, if_pos hsame, ← hsame, hlatest]
    exact ⟨key, rfl, hkeeps⟩
  · have hrevoked : KeyRecord.revoked other ∈ history ++ [record] ↔ .revoked other ∈ history := by
      rw [List.mem_append, List.mem_singleton, or_iff_left]
      rintro rfl
      exact hsame rfl
    have hother : latest (history ++ [record]) other = latest history other := by
      rw [latest_append]
      cases record with
      | issued issued => exact if_neg hsame
      | revoked _ => rfl
    have hbefore := h other
    rw [hkeys, if_neg hsame, hother, hrevoked]
    split at hbefore
    · exact hbefore
    · obtain ⟨stored, hstored, hkept⟩ := hbefore
      exact ⟨stored, hstored, { hkept with revoked := hkept.revoked.trans hrevoked.symm }⟩

/-- Where a key is stored, the history has a credential of it. -/
theorem Tracks.stored {file : ApiKeyFile} (h : Tracks sha256 history file) {key : StoredKey}
    (hkey : file.keys[id]? = some key) :
    ∃ issued, latest history id = some issued ∧ Keeps sha256 history id issued key := by
  have hid := h id
  split at hid
  · rw [hkey] at hid
    cases hid.1
  · rename_i issued hlatest
    obtain ⟨stored, hstored, hkeeps⟩ := hid
    cases hkey.symm.trans hstored
    exact ⟨issued, hlatest, hkeeps⟩

theorem Tracks.not_revoked {file : ApiKeyFile} (h : Tracks sha256 history file)
    (hnone : latest history id = none) : .revoked id ∉ history := by
  have hid := h id
  rw [hnone] at hid
  exact hid.2

theorem Keeps.revoke {issued : IssuedApiKey} {key : StoredKey}
    (h : Keeps sha256 history id issued key) (now : ℕ) :
    Keeps sha256 (history ++ [.revoked id]) id issued
      { key with metadata := revokedMetadata now key.metadata } := by
  have hhistory : KeyRecord.revoked id ∈ history ++ [.revoked id] :=
    List.mem_append_right _ List.mem_cons_self
  by_cases hnone : key.metadata.revokedAtUnix.isNone
  · have hmetadata : revokedMetadata now key.metadata =
        { key.metadata with revokedAtUnix := some now, updatedAtUnix := now } := if_pos hnone
    rw [hmetadata]
    exact ⟨h.keyId, h.issuedId, h.project, h.account, h.expires, iff_of_true rfl hhistory,
      ⟨h.checked.project, h.checked.account⟩, h.credential, h.separated⟩
  · have hmetadata : revokedMetadata now key.metadata = key.metadata := if_neg hnone
    have hsome : key.metadata.revokedAtUnix.isSome := by
      rwa [Option.isNone_iff_eq_none, ← ne_eq, ← Option.isSome_iff_ne_none] at hnone
    rw [hmetadata]
    exact { h with revoked := iff_of_true hsome hhistory }

theorem Generated.created {ring : KeyRing} {now : ℕ} {call : ApiKeyCall} {entropy : KeyEntropy}
    (h : Generated ring (.call now call)) (hentropy : call.entropy = some entropy)
    (hcreates : ∀ id, call ≠ .rotate id (some entropy)) :
    latest ring.history entropy.id = none ∧ '.' ∉ entropy.id.toList ∧ entropy.id ≠ "" ∧
      entropy.secret ≠ "" := by
  cases call with
  | create | createForServiceAccount =>
    cases hentropy
    exact h
  | revoke => cases hentropy
  | rotate id =>
    cases hentropy
    exact absurd rfl (hcreates id)

theorem Tracks.call {ring : KeyRing} {now : ℕ} {call : ApiKeyCall} {record : KeyRecord}
    {key : StoredKey} (h : Tracks sha256 ring.history ring.keys.memory)
    (hgenerated : Generated ring (.call now call))
    (heffect : Effect sha256 now ring.keys.memory call record id key) :
    Tracks sha256 (ring.history ++ [record]) (ring.keys.memory.apply (.put id key)) := by
  cases heffect with
  | created entropy metadata hcreates hentropy hid hrevoked hchecked =>
    obtain ⟨hfresh, hdot, hempty, hsecret⟩ := hgenerated.created hentropy hcreates
    refine h.put hid (by rw [latest_append]; exact if_pos hid) ⟨hid, hid, rfl, rfl, rfl, ?_, hchecked,
      ⟨_, hsecret, rfl, rfl⟩, hdot, hempty⟩
    have hnot := h.not_revoked hfresh
    rw [hrevoked, List.mem_append, List.mem_singleton]
    simp [hnot]
  | revoked _ stored hkey =>
    obtain ⟨issued, hlatest, hkeeps⟩ := h.stored hkey
    exact h.put rfl (by rw [latest_append]; exact hlatest) (hkeeps.revoke now)
  | rotated _ stored entropy hrotates hkey hactive =>
    obtain ⟨issued, hlatest, hkeeps⟩ := h.stored hkey
    subst hrotates
    refine h.put hkeeps.keyId (by rw [latest_append]; exact if_pos hkeeps.keyId) ⟨hkeeps.keyId,
      hkeeps.keyId, rfl, rfl, rfl, ?_, ⟨hkeeps.checked.project, hkeeps.checked.account⟩, ⟨_, hgenerated, rfl, rfl⟩, hkeeps.separated⟩
    rw [List.mem_append, List.mem_singleton, or_iff_left (fun h => by cases h)]
    exact hkeeps.revoked

/-! ### Steps -/

theorem step_call (sha256 : List UInt8 → List UInt8) (ring : KeyRing) (now : ℕ) (call : ApiKeyCall) :
    step sha256 ring (.call now call) = ring ∨ ∃ record id key,
      Effect sha256 now ring.keys.memory call record id key ∧
        step sha256 ring (.call now call) = ⟨.reopen .default
          (some (ring.keys.memory.apply (.put id key))), ring.files, ring.history ++ [record]⟩ := by
  have hsettles : Settles (respond sha256 now ring.files call) ring.keys
    (Stores sha256 now ring.keys call) := settles_respond call
  unfold Settles at hsettles
  unfold step
  dsimp only
  rcases hrun : (respond sha256 now ring.files call).run ring.keys [] with
    ⟨record | error | _, world⟩ <;> rw [hrun] at hsettles
  · obtain ⟨id, key, heffect, hafter⟩ := hsettles
    exact .inr ⟨record, id, key, heffect, by rw [← hafter]⟩
  · exact .inl (congrArg (fun keys => { ring with keys }) hsettles)
  · exact .inl (congrArg (fun keys => { ring with keys }) hsettles)

theorem finish_account {files : Files}
    (hversion : (files .serviceAccounts).version = serviceAccountStoreVersion) (now : ℕ)
    (call : ServiceAccountCall) : ((call.task now).finish applyChange files).1 = files ∨
      ∃ change, ((call.task now).finish applyChange files).1 =
        Function.update files .serviceAccounts ((files .serviceAccounts).apply change) := by
  have hopen {next : ServiceAccountFile → ApiTask ServiceAccountError ServiceAccount} :
      ((openServiceAccounts >>= next).finish applyChange files).1 =
        ((next (files .serviceAccounts)).finish applyChange files).1 := by
    rw [readOnly_openServiceAccounts.finish_bind, answer_openServiceAccounts hversion]
  have hput (id : ServiceAccountId) (plan : Except ServiceAccountError ServiceAccount) :
      ((putServiceAccount (files .serviceAccounts) id plan).finish applyChange files).1 = files ∨
        ∃ change, ((putServiceAccount (files .serviceAccounts) id plan).finish applyChange files).1 =
          Function.update files .serviceAccounts ((files .serviceAccounts).apply change) := by
    cases plan with
    | error error => exact .inl rfl
    | ok account => exact .inr ⟨.put id account, rfl⟩
  cases call with
  | create id name | setLifecycle id lifecycle | removeProjectAssignment id projectId =>
    unfold ServiceAccountCall.task
    rw [hopen]
    exact hput id _
  | delete id =>
    unfold ServiceAccountCall.task
    rw [hopen]
    cases (files .serviceAccounts).account id with
    | error error => exact .inl rfl
    | ok account => exact .inr ⟨.remove id, rfl⟩
  | assignProject id projectId role =>
    unfold ServiceAccountCall.task
    rw [hopen, readOnly_ensureActiveProject.finish_bind]
    cases (ensureActiveProject projectId).answer applyChange files with
    | error error => exact .inl rfl
    | ok _ => exact hput id _

theorem parented_planned {store : ControlPlaneState} (h : store.Parented)
    (request : ControlPlaneStore.Request) : (planned store request).Parented := by
  have hkeeps {plan : Except ControlPlaneStoreError ControlPlaneChange}
      (hplan : KeepsParented store plan) : ∀ change, plan.map some = .ok (some change) →
        (store.apply change).Parented :=
    fun change hchange => hplan change (ControlPlaneStore.plan_some_ok hchange) h
  have hchange : ∀ change, ControlPlaneStore.plan store request = .ok (some change) →
      (store.apply change).Parented := by
    cases request with
    | bootstrapDefault createdAtUnix =>
      intro change hplan
      obtain ⟨-, -, organization, project, rfl, hid, -, -, howner, -⟩ :=
        ControlPlaneState.bootstrapDefault_ok hplan
      refine (h.withOrganization organization).withProject ?_
      rw [howner, ← hid]
      exact Std.ExtTreeMap.mem_insert_self
    | createOrganization => exact hkeeps keepsParented_createOrganization
    | updateOrganization => exact hkeeps keepsParented_updateOrganization
    | createProject => exact hkeeps keepsParented_createProject
    | updateProject => exact hkeeps keepsParented_updateProject
    | deleteProject => exact hkeeps keepsParented_deleteProject
    | deleteOrganization => exact hkeeps keepsParented_deleteOrganization
  unfold planned
  split
  · exact hchange _ ‹_›
  · exact h
  · exact h

/-- The stores of a server that has only run as it is meant to. -/
structure Sound (sha256 : List UInt8 → List UInt8) (ring : KeyRing) : Prop where
  written : ring.keys = .reopen .default ring.keys.disk
  tracks : Tracks sha256 ring.history ring.keys.memory
  parented : (ring.files .store).Parented
  version : (ring.files .serviceAccounts).version = serviceAccountStoreVersion

theorem sound_opened : Sound sha256 opened where
  written := rfl
  tracks := fun _ => ⟨rfl, List.not_mem_nil⟩
  parented := fun _ _ hproject => by cases hproject
  version := rfl

variable {ring : KeyRing} {event : KeyEvent}

theorem Sound.step (h : Sound sha256 ring) (hgenerated : Generated ring event) :
    Sound sha256 (KeyRing.step sha256 ring event) := by
  cases event with
  | call now call =>
    rcases step_call sha256 ring now call with hsame | ⟨record, id, key, heffect, hafter⟩
    · rw [hsame]
      exact h
    · rw [hafter]
      exact ⟨rfl, h.tracks.call hgenerated heffect, h.parented, h.version⟩
  | account now call =>
    unfold KeyRing.step
    dsimp only
    rcases finish_account h.version now call with hsame | ⟨change, hafter⟩
    · rw [hsame]
      exact h
    · rw [hafter]
      refine ⟨h.written, h.tracks, ?_, ?_⟩
      · show (Function.update ring.files .serviceAccounts
          ((ring.files .serviceAccounts).apply change) .store).Parented
        rw [Function.update_of_ne (by decide)]
        exact h.parented
      · show (Function.update ring.files .serviceAccounts
          ((ring.files .serviceAccounts).apply change) .serviceAccounts).version = _
        rw [Function.update_self]
        cases change <;> exact h.version
  | controlPlane request =>
    refine ⟨h.written, h.tracks, ?_, ?_⟩
    · show (Function.update ring.files .store (planned (ring.files .store) request) .store).Parented
      rw [Function.update_self]
      exact parented_planned h.parented request
    · show (Function.update ring.files .store (planned (ring.files .store) request)
        .serviceAccounts).version = _
      rw [Function.update_of_ne (by decide)]
      exact h.version
  | restart =>
    unfold KeyRing.step
    dsimp only
    rw [← h.written]
    exact h

/-! ### Acceptance -/

theorem validateActive_ok_iff {metadata : ApiKeyMetadata} {now : ℕ} :
    validateActive metadata now = .ok () ↔ ¬metadata.revokedAtUnix.isSome ∧
      ∀ expires ∈ metadata.expiresAtUnix, now < expires := by
  unfold validateActive
  by_cases hrevoked : metadata.revokedAtUnix.isSome
  · simp [hrevoked]
  · rw [if_neg hrevoked]
    cases metadata.expiresAtUnix with
    | none => simp [hrevoked]
    | some expires =>
      by_cases hexpired : expires ≤ now
      · simp [hexpired]
      · simp [hrevoked, hexpired, Nat.lt_of_not_le hexpired]

theorem Keeps.boundRole_iff {issued : IssuedApiKey} {key : StoredKey} {files : Files}
    {role : Option ProjectRole} (h : Keeps sha256 history id issued key) :
    BoundRole files key.metadata role ↔ BoundRole files issued.metadata role := by
  unfold BoundRole
  rw [h.project, h.account]

theorem Keeps.principalOf {issued : IssuedApiKey} {key : StoredKey} {role : Option ProjectRole}
    (h : Keeps sha256 history id issued key) :
    ControlPlane.principalOf key.metadata role = ControlPlane.principalOf issued.metadata role := by
  unfold ControlPlane.principalOf
  rw [h.project, h.account, h.keyId, h.issuedId]

/-- The server accepts what the history says. -/
theorem Sound.accepts (h : Sound sha256 ring) (hsha : Function.Injective sha256) {now : ℕ}
    {text : String} {principal : Principal} :
    ApiKeyStore.authenticateToken sha256 now ring.files ring.keys.memory text = .ok principal ↔
      Accepted ring now text principal := by
  rw [authenticateToken_ok_iff]
  constructor
  · rintro ⟨id, secret, key, role, hparse, hkey, hactive, hproject, hrole, hverifier, hprincipal⟩
    obtain ⟨issued, hlatest, hkeeps⟩ := h.tracks.stored hkey
    obtain ⟨hrevoked, hexpires⟩ := validateActive_ok_iff.mp hactive
    obtain ⟨projectId, hprojectId⟩ := hkeeps.checked.project
    rw [← hprojectId, resolveActiveProject_ok_iff h.parented, hprojectId] at hproject
    have hbound := (resolveServiceAccountRole_ok_iff h.version hkeeps.checked hproject).mp hrole
    obtain ⟨last, -, hcredential, hlast⟩ := hkeeps.credential
    have hsecret : secret = last := digest_injective hsha (hverifier.symm.trans hlast)
    refine ⟨issued, role, hkeeps.issuedId ▸ hlatest, ?_, ?_, hkeeps.expires ▸ hexpires,
      hkeeps.project ▸ hproject, hkeeps.boundRole_iff.mp hbound, ?_⟩
    · rw [token_of_parseToken hparse, hsecret, hcredential]
    · rw [hkeeps.issuedId]
      exact fun hmem => hrevoked (hkeeps.revoked.mpr hmem)
    · rw [← hkeeps.principalOf]
      exact (keyPrincipal_ok_iff hkeeps.checked hbound).mp hprincipal
  · rintro ⟨issued, role, hlatest, rfl, hrevoked, hexpires, hproject, hbound, rfl⟩
    have htracked := h.tracks issued.metadata.id
    rw [hlatest] at htracked
    obtain ⟨key, hkey, hkeeps⟩ := htracked
    obtain ⟨last, hne, hcredential, hlast⟩ := hkeeps.credential
    obtain ⟨projectId, hprojectId⟩ := hkeeps.checked.project
    rw [← hkeeps.project] at hproject
    rw [← hkeeps.boundRole_iff] at hbound
    refine ⟨issued.metadata.id, last, key, role, ?_, hkey, validateActive_ok_iff.mpr ⟨?_, ?_⟩, ?_,
      (resolveServiceAccountRole_ok_iff h.version hkeeps.checked hproject).mpr hbound, hlast, ?_⟩
    · rw [hcredential, parseToken_token hkeeps.separated.1 hkeeps.separated.2 hne]
    · exact fun hsome => hrevoked (hkeeps.revoked.mp hsome)
    · rw [hkeeps.expires]
      exact hexpires
    · rw [← hprojectId] at hproject ⊢
      exact (resolveActiveProject_ok_iff h.parented projectId).mpr hproject
    · rw [← hkeeps.principalOf]
      exact (keyPrincipal_ok_iff hkeeps.checked hbound).mpr rfl

/-- The key is revoked, or it has expired at that time. -/
def Ended (ring : KeyRing) (now : ℕ) (id : String) : Prop :=
  .revoked id ∈ ring.history ∨ ∃ issued expires, latest ring.history id = some issued ∧
    issued.metadata.expiresAtUnix = some expires ∧ expires ≤ now

theorem Ended.step {now : ℕ} (hended : Ended ring now id) (h : Sound sha256 ring)
    (hgenerated : Generated ring event) : Ended (KeyRing.step sha256 ring event) now id := by
  cases event with
  | account | controlPlane | restart => exact hended
  | call time call =>
    rcases step_call sha256 ring time call with hsame | ⟨record, other, key, heffect, hafter⟩
    · rw [hsame]
      exact hended
    · rw [hafter]
      rcases hended with hmem | ⟨issued, expires, hlatest, hexpires, hle⟩
      · exact .inl (List.mem_append_left _ hmem)
      show KeyRecord.revoked id ∈ ring.history ++ [record] ∨ ∃ issued expires,
        latest (ring.history ++ [record]) id = some issued ∧ _
      rw [latest_append]
      cases heffect with
      | revoked => exact .inr ⟨issued, expires, hlatest, hexpires, hle⟩
      | created entropy metadata hcreates hentropy hid =>
        by_cases hsame : metadata.id = id
        · -- A new key does not take the id of another one.
          have hfresh := (hgenerated.created hentropy hcreates).1
          rw [← hid, hsame, hlatest] at hfresh
          cases hfresh
        · exact .inr ⟨issued, expires, (if_neg hsame).trans hlatest, hexpires, hle⟩
      | rotated _ key entropy _ hkey =>
        obtain ⟨last, hlast, hkeeps⟩ := h.tracks.stored hkey
        by_cases hsame : key.metadata.id = id
        · rw [hkeeps.keyId] at hsame
          subst hsame
          cases hlatest.symm.trans hlast
          exact .inr ⟨_, expires, if_pos hkeeps.keyId, hkeeps.expires.trans hexpires, hle⟩
        · exact .inr ⟨issued, expires, (if_neg hsame).trans hlatest, hexpires, hle⟩

theorem Ended.not_active {now : ℕ} (hended : Ended ring now id) (h : Sound sha256 ring)
    {key : StoredKey} (hkey : ring.keys.memory.keys[id]? = some key) :
    validateActive key.metadata now ≠ .ok () := by
  obtain ⟨issued, hlatest, hkeeps⟩ := h.tracks.stored hkey
  intro hactive
  obtain ⟨hrevoked, hexpires⟩ := validateActive_ok_iff.mp hactive
  rcases hended with hmem | ⟨other, expires, hother, hat, hle⟩
  · exact hrevoked (hkeeps.revoked.mpr hmem)
  · cases hlatest.symm.trans hother
    exact absurd (hexpires expires (hkeeps.expires.trans hat)) (Nat.not_lt.mpr hle)

/-- In every run a token is accepted exactly when it is the last one of a key that is in
force. A key that was revoked or has expired is never accepted again, nor rotated. -/
theorem apiKeys_sound (hsha : Function.Injective sha256) {earlier state : KeyRing}
    (hearlier : Reaches (KeyRing.step sha256) Generated opened earlier)
    (hlater : Reaches (KeyRing.step sha256) Generated earlier state) :
    (∀ now text principal,
      ApiKeyStore.authenticateToken sha256 now state.files state.keys.memory text =
        .ok principal ↔ Accepted state now text principal) ∧
    ∀ now id, Ended earlier now id →
      (∀ text secret principal, parseToken text = some (id, secret) →
        ApiKeyStore.authenticateToken sha256 now state.files state.keys.memory text ≠
          .ok principal) ∧
      ∀ entropy faults, ∃ error,
        (ApiKeyStore.rotate sha256 now state.files id entropy).run state.keys faults =
          (.error error, ⟨state.keys, faults⟩) := by
  have hsound : Sound sha256 earlier := hearlier.invariant (Sound sha256) sound_opened
    fun _ _ h hgenerated => h.step hgenerated
  have hboth (now : ℕ) (id : String) (hended : Ended earlier now id) :
      Sound sha256 state ∧ Ended state now id :=
    hlater.invariant (fun ring => Sound sha256 ring ∧ Ended ring now id) ⟨hsound, hended⟩
      fun _ _ h hgenerated => ⟨h.1.step hgenerated, h.2.step h.1 hgenerated⟩
  have hstate : Sound sha256 state := hlater.invariant (Sound sha256) hsound
    fun _ _ h hgenerated => h.step hgenerated
  refine ⟨fun now text principal => hstate.accepts hsha, fun now id hended => ⟨?_, ?_⟩⟩
  · intro text secret principal hparse hok
    obtain ⟨other, _, key, _, hother, hkey, hactive, -⟩ := authenticateToken_ok_iff.mp hok
    cases hparse.symm.trans hother
    exact (hboth now id hended).2.not_active hstate hkey hactive
  · intro entropy faults
    have hcheck : ∃ error, ApiKeyStore.checkRotation now state.files state.keys.memory id =
        .error error := by
      cases hchecked : ApiKeyStore.checkRotation now state.files state.keys.memory id with
      | error error => exact ⟨error, rfl⟩
      | ok key =>
        obtain ⟨stored, hkey, hchecked⟩ := except_bind_ok.mp hchecked
        obtain ⟨_, hactive, -⟩ := except_bind_ok.mp hchecked
        exact absurd hactive
          ((hboth now id hended).2.not_active hstate (storedKey_ok_iff.mp hkey))
    obtain ⟨error, hcheck⟩ := hcheck
    refine ⟨error, ?_⟩
    show (Program.lift (ApiKeyStore.checkRotation now state.files state.keys.memory id) >>= _ :
      KeyProgram IssuedApiKey) ⟨state.keys, faults⟩ = _
    rw [hcheck]
    rfl

def plainBytes (bytes : List UInt8) : List UInt8 := bytes

/-- A server that has issued one key. -/
def createdRing : KeyRing :=
  step plainBytes (step plainBytes opened (.controlPlane (.bootstrapDefault 0)))
    (.call 0 (.create "default" none (some ⟨"a", "s", []⟩)))

def revokedRing : KeyRing := step plainBytes createdRing (.call 1 (.revoke "a"))

theorem apiKeys_sound_revoked :
    (∃ principal, ApiKeyStore.authenticateToken plainBytes 0 createdRing.files
      createdRing.keys.memory "ktb_a.s" = .ok principal) ∧
    ∀ now principal, ApiKeyStore.authenticateToken plainBytes now revokedRing.files
      revokedRing.keys.memory "ktb_a.s" ≠ .ok principal := by
  have hempty : Reaches (step plainBytes) Generated opened opened := .refl opened
  have hopened := hempty.tail (.controlPlane (.bootstrapDefault 0)) trivial
  have hcreated : Reaches (step plainBytes) Generated opened createdRing :=
    hopened.tail (.call 0 (.create "default" none (some ⟨"a", "s", []⟩)))
      ⟨rfl, by decide, by decide, by decide⟩
  have hrevoked : Reaches (step plainBytes) Generated opened revokedRing :=
    hcreated.tail (.call 1 (.revoke "a")) trivial
  have haccepts := (apiKeys_sound Function.injective_id hcreated (Reaches.refl _)).1
  refine ⟨⟨_, (haccepts 0 "ktb_a.s" _).mpr ⟨⟨⟨"a", "default", none, 0, 0, none, none⟩, "ktb_a.s"⟩,
    none, by decide, rfl, by decide, (fun _ h => by cases h), ?_, rfl, rfl⟩⟩, fun now principal => ?_⟩
  · exact ⟨_, rfl, rfl⟩
  · exact ((apiKeys_sound Function.injective_id hrevoked (Reaches.refl _)).2 now "a"
      (.inl (by decide))).1 "ktb_a.s" "s" principal (by decide)

end KeyRing

end ControlPlane

end Ketebe
