import Ketebe.Memberships

/-!
Collection policies. A principal claims a collection for the project that it is
pinned to, and a collection is reached only through a policy of its project. A
permission of the policy narrows what its subject may do.
-/
namespace Ketebe

inductive CollectionPermission where
  | read
  | write
  | admin
  deriving DecidableEq, Repr

structure CollectionPolicy where
  projectId : String
  permissions : Std.ExtTreeMap String CollectionPermission compare

/-- The stored project roles and collection permissions. -/
structure PolicyFile where
  version : ℕ
  projects : Std.ExtTreeMap String (Std.ExtTreeMap String ProjectRole compare) compare
  collections : Std.ExtTreeMap String CollectionPolicy compare

def PolicyFile.default : PolicyFile := ⟨1, ∅, ∅⟩

inductive ClaimOutcome where
  | inserted
  | existing
  deriving DecidableEq, Repr

inductive PolicyChange where
  | setRole (projectId subject : String) (role : ProjectRole)
  | putCollection (key : String) (policy : CollectionPolicy)
  | removeCollections (keys : List String)

def collectionPermissionAllows : CollectionPermission → AuthorizationAction → Bool
  | .admin, action => action ≠ .projectAdmin
  | .write, action => action = .collectionDiscover ∨ action = .collectionRead ∨
      action = .collectionWrite
  | .read, action => action = .collectionDiscover ∨ action = .collectionRead

def collectionPolicyKey (projectId collectionId : String) : String :=
  projectId ++ "\u001f" ++ collectionId

namespace PolicyFile

def apply (file : PolicyFile) : PolicyChange → PolicyFile
  | .setRole projectId subject role => { file with
      projects := file.projects.insert projectId
        ((file.projects.getD projectId ∅).insert subject role) }
  | .putCollection key policy => { file with collections := file.collections.insert key policy }
  | .removeCollections keys => { file with collections := file.collections.eraseMany keys }

/-- The key of a collection's policy. Policies from before there were projects have
the collection alone as their key. -/
def policyKey (file : PolicyFile) (projectId collectionId : String) : Option String :=
  if collectionPolicyKey projectId collectionId ∈ file.collections then
    some (collectionPolicyKey projectId collectionId)
  else if (file.collections[collectionId]?.map CollectionPolicy.projectId) = some projectId then
    some collectionId
  else none

/-- The policy of a collection with its key. -/
def policyOf (file : PolicyFile) (projectId collectionId : String) :
    Option (String × CollectionPolicy) := do
  let key ← file.policyKey projectId collectionId
  let policy ← file.collections[key]?
  pure (key, policy)

/-! ### Policies after a change -/

section EraseMany

variable {β : Type}

theorem inner_eraseMany (table : Std.ExtDTreeMap String (fun _ => β) compare)
    (keys : List String) :
    table.eraseMany keys = keys.foldl (fun rest key => rest.erase key) table := by
  -- The loop keeps a proof beside the table, which does not matter.
  have hfold : ∀ (keys : List String)
      (acc : { a // ∀ P : Std.ExtDTreeMap String (fun _ => β) compare → Prop, P table →
        (∀ t a, P t → P (t.erase a)) → P a }),
      (keys.foldl (fun (acc : { a // ∀ P : Std.ExtDTreeMap String (fun _ => β) compare → Prop,
          P table → (∀ t a, P t → P (t.erase a)) → P a }) key =>
        ⟨acc.1.erase key, fun P h h' => h' acc.1 key (acc.2 P h h')⟩) acc).1 =
          keys.foldl (fun rest key => rest.erase key) acc.1 := by
    intro keys
    induction keys with
    | nil => intro acc; rfl
    | cons key rest ih =>
      intro acc
      exact ih _
  unfold Std.ExtDTreeMap.eraseMany
  simp only [List.forIn_pure_yield_eq_foldl, bind_pure_comp, map_pure, Id.run_pure]
  exact hfold keys ⟨table, fun _ h _ => h⟩

theorem eraseMany_eq_foldl (table : Std.ExtTreeMap String β compare) (keys : List String) :
    table.eraseMany keys = keys.foldl (fun rest key => rest.erase key) table := by
  have hinner : (keys.foldl (fun rest key => rest.erase key) table).inner =
      keys.foldl (fun rest key => rest.erase key) table.inner := by
    induction keys generalizing table with
    | nil => rfl
    | cons key rest ih => exact ih (table.erase key)
  show Std.ExtTreeMap.mk _ = _
  rw [inner_eraseMany, ← hinner]

theorem getElem?_eraseMany (table : Std.ExtTreeMap String β compare) (keys : List String)
    (key : String) : (table.eraseMany keys)[key]? = if key ∈ keys then none else table[key]? := by
  rw [eraseMany_eq_foldl]
  induction keys generalizing table with
  | nil => rfl
  | cons first rest ih =>
    rw [List.foldl_cons, ih, Std.ExtTreeMap.getElem?_erase]
    simp only [List.mem_cons, compare_eq_iff_eq]
    by_cases hrest : key ∈ rest
    · simp [hrest]
    · by_cases hfirst : first = key
      · simp [hfirst]
      · simp [hrest, hfirst, Ne.symm hfirst]

end EraseMany

variable {file : PolicyFile}

theorem collections_of_policyOf {projectId collectionId key : String} {policy : CollectionPolicy}
    (h : file.policyOf projectId collectionId = some (key, policy)) :
    file.collections[key]? = some policy := by
  obtain ⟨found, -, h⟩ := Option.bind_eq_some_iff.mp h
  obtain ⟨stored, hstored, h⟩ := Option.bind_eq_some_iff.mp h
  cases h
  exact hstored

theorem collections_putCollection (key other : String) (policy : CollectionPolicy) :
    (file.apply (.putCollection key policy)).collections[other]? =
      if key = other then some policy else file.collections[other]? := by
  simp only [apply, Std.ExtTreeMap.getElem?_insert, compare_eq_iff_eq]

theorem collections_removeCollections (keys : List String) (key : String) :
    (file.apply (.removeCollections keys)).collections[key]? =
      if key ∈ keys then none else file.collections[key]? := getElem?_eraseMany ..

theorem insert_eq_self_iff {β : Type} {table : Std.ExtTreeMap String β compare} {key : String}
    {value : β} : table.insert key value = table ↔ table[key]? = some value := by
  constructor
  · intro h
    rw [← h, Std.ExtTreeMap.getElem?_insert_self]
  · intro h
    apply Std.ExtTreeMap.ext_getElem?
    intro other
    simp only [Std.ExtTreeMap.getElem?_insert, compare_eq_iff_eq]
    split
    · rename_i hkey
      rw [← hkey, h]
    · rfl

/-- A role is stored already. -/
theorem apply_setRole_eq_iff {projectId subject : String} {role : ProjectRole} :
    file.apply (.setRole projectId subject role) = file ↔
      (file.projects.getD projectId ∅)[subject]? = some role := by
  have hprojects : file.apply (.setRole projectId subject role) = file ↔
      file.projects.insert projectId ((file.projects.getD projectId ∅).insert subject role) =
        file.projects := by
    constructor
    · intro h
      exact congrArg projects h
    · intro h
      exact congrArg (fun projects => { file with projects }) h
  rw [hprojects, insert_eq_self_iff, Std.ExtTreeMap.getD_eq_getD_getElem?]
  cases file.projects[projectId]? with
  | none => simp
  | some roles =>
    simp only [Option.getD_some, Option.some.injEq]
    rw [eq_comm, insert_eq_self_iff]

theorem apply_putCollection_eq_iff {key : String} {policy : CollectionPolicy} :
    file.apply (.putCollection key policy) = file ↔ file.collections[key]? = some policy := by
  rw [← insert_eq_self_iff]
  constructor
  · intro h
    exact congrArg collections h
  · intro h
    exact congrArg (fun collections => { file with collections }) h

theorem apply_removeCollections_eq_iff {keys : List String} :
    file.apply (.removeCollections keys) = file ↔ ∀ key ∈ keys, key ∉ file.collections := by
  have hcollections : file.apply (.removeCollections keys) = file ↔
      file.collections.eraseMany keys = file.collections := by
    constructor
    · intro h
      exact congrArg collections h
    · intro h
      exact congrArg (fun collections => { file with collections }) h
  rw [hcollections]
  constructor
  · intro h key hkey hmem
    rw [← h, Std.ExtTreeMap.mem_iff_isSome_getElem?, getElem?_eraseMany, if_pos hkey] at hmem
    cases hmem
  · intro h
    apply Std.ExtTreeMap.ext_getElem?
    intro key
    rw [getElem?_eraseMany]
    split
    · rename_i hkey
      rw [Std.ExtTreeMap.getElem?_eq_none (h key hkey)]
    · rfl

end PolicyFile

end Ketebe
