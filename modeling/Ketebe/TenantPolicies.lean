import Ketebe.Lib.Runs
import Ketebe.SecurityStores

/-!
Policies of several projects. They share one table whose keys are the project and the
collection joined by a separator, or the collection alone for policies from before
there were projects. The projects stay apart unless such an old policy has a key that
looks like a joined one.
-/
namespace Ketebe.ControlPlane

open Lib.ByteCodec Lib.WholeFiles Lib.WholeFiles.Task Lib.Durable Lib.Durable.Program
  Lib.CachedFile Lib.Runs

theorem pinnedProject_ok {principal : Principal} {projectId : String}
    (h : pinnedProject principal = .ok projectId) :
    principal.workloadProjectId = some projectId := by
  unfold pinnedProject at h
  split at h
  · cases h
  · rename_i hpinned
    cases h
    exact hpinned

/-- A principal that may act in its project is pinned to it. -/
theorem workloadProject_of_authorized {files : Files} {principal : Principal}
    {action : AuthorizationAction} {projectId : String}
    (h : ask files (authorizePrincipalProject principal action) = .ok projectId) :
    principal.workloadProjectId = some projectId := by
  unfold authorizePrincipalProject pinnedProject at h
  cases hworkload : principal.workloadProjectId with
  | none =>
    rw [hworkload] at h
    cases h
  | some pinned =>
    have hread : (authorizeProjectNamed principal action pinned).ReadOnly :=
      readOnly_authorizeProjectNamed
    rw [hworkload] at h
    have hanswer : ((authorizeProjectNamed principal action pinned >>= fun _ =>
        (pure pinned : ApiTask AuthorizationError String)).answer applyChange files) =
          .ok projectId := h
    rw [hread.answer_bind] at hanswer
    obtain ⟨_, -, hsame⟩ := except_bind_ok.mp hanswer
    cases hsame
    rfl

/-! ### Keys -/

def keySeparator : Char := '\u001f'

/-- The project of a joined key is what stands before the first separator. -/
theorem takeWhile_collectionPolicyKey (id : ProjectId) (collectionId : String) :
    (collectionPolicyKey id.asStr collectionId).toList.takeWhile (· ≠ keySeparator) =
      id.asStr.toList := by
  have hcharacters := (characters_of_validateIdentifier id.valid).2
  have hid : ∀ character ∈ id.asStr.toList, decide (character ≠ keySeparator) = true := by
    intro character hmem
    apply decide_eq_true
    intro hseparator
    have hvalid := hcharacters character hmem
    rw [hseparator] at hvalid
    exact absurd hvalid (by decide)
  have hkey : (collectionPolicyKey id.asStr collectionId).toList =
      id.asStr.toList ++ keySeparator :: collectionId.toList := by
    simp only [collectionPolicyKey, String.toList_append, List.append_assoc]
    rfl
  rw [hkey, List.takeWhile_append_of_pos hid, List.takeWhile_cons_of_neg (by simp), List.append_nil]

theorem collectionPolicyKey_project {id other : ProjectId} {collectionId name : String}
    (h : collectionPolicyKey id.asStr collectionId = collectionPolicyKey other.asStr name) :
    id = other := by
  have hchars := takeWhile_collectionPolicyKey id collectionId
  rw [h, takeWhile_collectionPolicyKey] at hchars
  exact ProjectId.asStr_injective (String.toList_inj.mp hchars.symm)

theorem asStr_ne {id other : ProjectId} (hne : other ≠ id) : other.asStr ≠ id.asStr :=
  fun hsame => hne (ProjectId.asStr_injective hsame)

/-! ### What a project sees of the policies -/

/-- A joined key is only used for policies of its project, or of no project at all. -/
structure Separated (id : ProjectId) (file : PolicyFile) : Prop where
  others : ∀ (other : ProjectId) (name : String) (policy : CollectionPolicy), other ≠ id →
    file.collections[collectionPolicyKey other.asStr name]? = some policy →
      policy.projectId ≠ id.asStr
  own : ∀ (other : ProjectId) (name : String) (policy : CollectionPolicy), other ≠ id →
    file.collections[collectionPolicyKey id.asStr name]? = some policy →
      policy.projectId ≠ other.asStr

/-- The decisions for a project, the number of its collections and its policies. -/
structure SameFor (id : ProjectId) (before after : PolicyFile) : Prop where
  decisions : ∀ (files : Files) (principal : Principal) (action : AuthorizationAction)
    (name : String),
    AuthorizationService.authorizeCollectionInProject files after principal action id.asStr name =
      AuthorizationService.authorizeCollectionInProject files before principal action id.asStr name
  count : AuthorizationService.projectCollectionCount after id.asStr =
    AuthorizationService.projectCollectionCount before id.asStr
  entries : ∀ (key : String) (policy : CollectionPolicy), policy.projectId = id.asStr →
    (after.collections[key]? = some policy ↔ before.collections[key]? = some policy)

/-- What the decisions for a project look at is as it was. -/
structure Kept (id : ProjectId) (before after : PolicyFile) : Prop where
  separated : Separated id after
  joined : ∀ name : String, after.collections[collectionPolicyKey id.asStr name]? =
    before.collections[collectionPolicyKey id.asStr name]?
  entries : ∀ (key : String) (policy : CollectionPolicy), policy.projectId = id.asStr →
    (after.collections[key]? = some policy ↔ before.collections[key]? = some policy)

section Kept

variable {id : ProjectId} {before after file : PolicyFile}

theorem Kept.refl (h : Separated id file) : Kept id file file :=
  ⟨h, fun _ => rfl, fun _ _ _ => Iff.rfl⟩

theorem Kept.policyOf (h : Kept id before after) (name : String) :
    after.policyOf id.asStr name = before.policyOf id.asStr name := by
  have hjoined : collectionPolicyKey id.asStr name ∈ after.collections ↔
      collectionPolicyKey id.asStr name ∈ before.collections := by
    rw [Std.ExtTreeMap.mem_iff_isSome_getElem?, Std.ExtTreeMap.mem_iff_isSome_getElem?, h.joined]
  have hlegacy : (after.collections[name]?.map CollectionPolicy.projectId) = some id.asStr ↔
      (before.collections[name]?.map CollectionPolicy.projectId) = some id.asStr := by
    simp only [Option.map_eq_some_iff]
    constructor
    · intro hfound
      obtain ⟨policy, hpolicy, hproject⟩ := hfound
      exact ⟨policy, (h.entries name policy hproject).mp hpolicy, hproject⟩
    · intro hfound
      obtain ⟨policy, hpolicy, hproject⟩ := hfound
      exact ⟨policy, (h.entries name policy hproject).mpr hpolicy, hproject⟩
  unfold PolicyFile.policyOf PolicyFile.policyKey
  by_cases hmem : collectionPolicyKey id.asStr name ∈ before.collections
  · rw [if_pos (hjoined.mpr hmem), if_pos hmem]
    show (after.collections[_]? >>= _) = (before.collections[_]? >>= _)
    rw [h.joined]
  · rw [if_neg (mt hjoined.mp hmem), if_neg hmem]
    by_cases hproject : (before.collections[name]?.map CollectionPolicy.projectId) = some id.asStr
    · rw [if_pos (hlegacy.mpr hproject), if_pos hproject]
      obtain ⟨policy, hpolicy, hid⟩ := Option.map_eq_some_iff.mp hproject
      show (after.collections[name]? >>= _) = (before.collections[name]? >>= _)
      rw [hpolicy, (h.entries name policy hid).mpr hpolicy]
    · rw [if_neg (mt hlegacy.mp hproject), if_neg hproject]
      rfl

/-- The policies of a project as a list have no duplicates. -/
theorem Kept.count (h : Kept id before after) :
    AuthorizationService.projectCollectionCount after id.asStr =
      AuthorizationService.projectCollectionCount before id.asStr := by
  refine (List.perm_ext_iff_of_nodup ((Lib.KeyedTable.nodup_toList _).filter _)
    ((Lib.KeyedTable.nodup_toList _).filter _) |>.mpr fun entry => ?_).length_eq
  simp only [List.mem_filter, decide_eq_true_eq]
  constructor
  · intro hentry
    have hstored := Std.ExtTreeMap.mem_toList_iff_getElem?_eq_some.mp hentry.1
    exact ⟨Std.ExtTreeMap.mem_toList_iff_getElem?_eq_some.mpr
      ((h.entries _ _ hentry.2).mp hstored), hentry.2⟩
  · intro hentry
    have hstored := Std.ExtTreeMap.mem_toList_iff_getElem?_eq_some.mp hentry.1
    exact ⟨Std.ExtTreeMap.mem_toList_iff_getElem?_eq_some.mpr
      ((h.entries _ _ hentry.2).mpr hstored), hentry.2⟩

theorem Kept.sameFor (h : Kept id before after) : SameFor id before after := by
  refine ⟨fun files principal action name => ?_, h.count, h.entries⟩
  unfold AuthorizationService.authorizeCollectionInProject foundPolicy
  rw [h.policyOf]

end Kept

/-! ### Calls of other projects -/

/-- Calls one after another, each with the files that it meets, and restarts. -/
inductive TenantEvent where
  | call (files : Files) (call : PolicyCall) (faults : List Fault)
  | restart

/-- The process has read its file, or there is none yet. -/
def reopened (disk : Option PolicyFile) : Cached PolicyFile := ⟨disk.getD .default, disk⟩

def tenantStep (store : Cached PolicyFile) : TenantEvent → Cached PolicyFile
  | .call files call faults =>
      match (AuthorizationService.call files call).run store faults with
      | (.crashed, world) => reopened world.state.disk
      | (_, world) => world.state
  | .restart => reopened store.disk

/-- The project that a call acts for, if it is one of those that projects make. -/
def actsFor : PolicyCall → Option (Option String)
  | .setCollectionPermission projectId _ _ _ => some (some projectId)
  | .claimCollection principal _ | .releaseCollectionClaimForPrincipal principal _ _
  | .removeCollection principal _ => some principal.workloadProjectId
  | .setProjectRole .. | .releaseCollectionClaim .. => none

/-- The call is made for another project, or for none. -/
def OfOthers (id : ProjectId) : TenantEvent → Prop
  | .call _ call _ => ∃ project, actsFor call = some project ∧
      ∀ projectId, project = some projectId → ∃ other : ProjectId,
        other ≠ id ∧ other.asStr = projectId
  | .restart => True

/-- No run of calls of other projects changes what the project sees, in memory or in
the file. -/
def Undisturbed (id : ProjectId) (disk : Option PolicyFile) : Prop :=
  ∀ store, Reaches tenantStep (fun _ event => OfOthers id event) (reopened disk) store →
    SameFor id (disk.getD .default) store.memory ∧
      SameFor id (disk.getD .default) (store.disk.getD .default)

/-- The key is not a joined one of the project, and no policy of the project is there. -/
structure Outside (id : ProjectId) (file : PolicyFile) (key : String) : Prop where
  joined : ∀ name, key ≠ collectionPolicyKey id.asStr name
  policy : ∀ policy, file.collections[key]? = some policy → policy.projectId ≠ id.asStr

/-- The change is outside of the project. -/
def Spares (id : ProjectId) (file : PolicyFile) : PolicyChange → Prop
  | .setRole .. => True
  | .putCollection key policy => Outside id file key ∧ policy.projectId ≠ id.asStr
  | .removeCollections keys => ∀ key ∈ keys, key ∈ file.collections → Outside id file key

section Changes

variable {id other : ProjectId} {before file : PolicyFile} {name : String}

theorem Kept.apply {change : PolicyChange} (h : Kept id before file)
    (hspares : Spares id file change) : Kept id before (file.apply change) := by
  cases change with
  | setRole projectId subject role => exact ⟨⟨h.separated.others, h.separated.own⟩, h.joined,
      h.entries⟩
  | putCollection key policy =>
    obtain ⟨houtside, hproject⟩ := hspares
    have hother (found : CollectionPolicy) (hfound : found.projectId = id.asStr) :
        found ≠ policy := fun hsame => hproject (hsame ▸ hfound)
    refine ⟨⟨fun other name found hne hfound => ?_, fun other name found hne hfound => ?_⟩,
      fun name => ?_, fun other found hid => ?_⟩
    · rw [PolicyFile.collections_putCollection] at hfound
      split at hfound
      · cases hfound
        exact hproject
      · exact h.separated.others other name found hne hfound
    · rw [PolicyFile.collections_putCollection, if_neg (houtside.joined name)] at hfound
      exact h.separated.own other name found hne hfound
    · rw [PolicyFile.collections_putCollection, if_neg (houtside.joined name)]
      exact h.joined name
    · rw [PolicyFile.collections_putCollection, ← h.entries other found hid]
      split
      · rename_i hkey
        refine iff_of_false (fun hsame => hother found hid (Option.some.inj hsame).symm) ?_
        intro hstored
        rw [← hkey] at hstored
        exact houtside.policy found hstored hid
      · rfl
  | removeCollections keys =>
    have hremoved {key : String} (hkey : key ∈ keys) {found : CollectionPolicy}
        (hfound : file.collections[key]? = some found) : Outside id file key :=
      hspares key hkey (Std.ExtTreeMap.mem_iff_isSome_getElem?.mpr
        (Option.isSome_of_eq_some hfound))
    have hshrinks {key : String} {found : CollectionPolicy}
        (hfound : (file.apply (.removeCollections keys)).collections[key]? = some found) :
        file.collections[key]? = some found := by
      rw [PolicyFile.collections_removeCollections] at hfound
      split at hfound
      · cases hfound
      · exact hfound
    refine ⟨⟨fun other name found hne hfound =>
        h.separated.others other name found hne (hshrinks hfound),
      fun other name found hne hfound => h.separated.own other name found hne (hshrinks hfound)⟩,
      fun name => ?_, fun other found hid => ?_⟩
    · rw [PolicyFile.collections_removeCollections, ← h.joined]
      split
      · rename_i hkey
        cases hfound : file.collections[collectionPolicyKey id.asStr name]? with
        | none => rfl
        | some found => exact absurd rfl ((hremoved hkey hfound).joined name)
      · rfl
    · rw [← h.entries other found hid, PolicyFile.collections_removeCollections]
      split
      · rename_i hkey
        refine iff_of_false nofun fun hfound => ?_
        exact (hremoved hkey hfound).policy found hfound hid
      · rfl

/-- A joined key of another project is outside. -/
theorem outside_collectionPolicyKey (h : Separated id file) (hne : other ≠ id) :
    Outside id file (collectionPolicyKey other.asStr name) :=
  ⟨fun _ hkey => hne (collectionPolicyKey_project hkey),
    fun policy hpolicy => h.others other name policy hne hpolicy⟩

/-- So is the key of an old policy of another project. -/
theorem outside_legacy (h : Separated id file) (hne : other ≠ id)
    (hlegacy : (file.collections[name]?.map CollectionPolicy.projectId) = some other.asStr) :
    Outside id file name := by
  obtain ⟨policy, hpolicy, hproject⟩ := Option.map_eq_some_iff.mp hlegacy
  constructor
  · intro joined hkey
    rw [hkey] at hpolicy
    exact h.own other joined policy hne hpolicy hproject
  · intro found hfound
    rw [hpolicy] at hfound
    cases hfound
    rw [hproject]
    exact asStr_ne hne

theorem outside_policyOf (h : Separated id file) (hne : other ≠ id) {key : String}
    {policy : CollectionPolicy} (hpolicy : file.policyOf other.asStr name = some (key, policy)) :
    Outside id file key := by
  obtain ⟨found, hfound, hpolicy⟩ := Option.bind_eq_some_iff.mp hpolicy
  obtain ⟨stored, -, hpolicy⟩ := Option.bind_eq_some_iff.mp hpolicy
  cases hpolicy
  unfold PolicyFile.policyKey at hfound
  split at hfound
  · cases hfound
    exact outside_collectionPolicyKey h hne
  · split at hfound
    · rename_i hlegacy
      cases hfound
      exact outside_legacy h hne hlegacy
    · cases hfound

theorem spares_removedKeys (h : Separated id file) (hne : other ≠ id) :
    Spares id file (.removeCollections (removedKeys file other.asStr name)) := by
  intro key hkey hmem
  unfold removedKeys at hkey
  dsimp only at hkey
  split at hkey
  · rename_i hlegacy
    rcases List.mem_pair.mp hkey with rfl | rfl
    · exact outside_collectionPolicyKey h hne
    · refine outside_legacy h hne ?_
      obtain ⟨policy, hpolicy, hproject⟩ := Option.map_eq_some_iff.mp hlegacy
      rw [Std.ExtTreeMap.getElem?_erase] at hpolicy
      split at hpolicy
      · cases hpolicy
      · exact Option.map_eq_some_iff.mpr ⟨policy, hpolicy, hproject⟩
  · rw [List.mem_singleton.mp hkey]
    exact outside_collectionPolicyKey h hne

end Changes

/-! ### Runs -/

/-- What the project sees is kept in memory and in the file. -/
structure KeptStore (id : ProjectId) (before : PolicyFile) (store : Cached PolicyFile) : Prop where
  memory : Kept id before store.memory
  disk : Kept id before (store.disk.getD .default)

/-- However a call ends, it keeps what the project sees. -/
abbrev keeping {α : Type} (id : ProjectId) (before : PolicyFile) :
    Post (Cached PolicyFile) AuthorizationError α :=
  ⟨fun _ => KeptStore id before, fun _ => KeptStore id before, KeptStore id before⟩

section Runs

variable {id other : ProjectId} {before : PolicyFile} {store : Cached PolicyFile} {files : Files}

theorem keeps_change {change : PolicyChange} (h : KeptStore id before store)
    (hspares : Spares id store.memory change) :
    (AuthorizationService.change change).Ensures (keeping id before) store := by
  have hchanged := h.memory.apply hspares
  exact Cached.ensures_commit ⟨hchanged, hchanged⟩ ⟨hchanged, h.disk⟩ ⟨hchanged, h.disk⟩
    ⟨hchanged, hchanged⟩

theorem keeps_setCollectionPermission (h : KeptStore id before store) (hne : other ≠ id)
    (collectionId subject : String) (permission : CollectionPermission) :
    (AuthorizationService.setCollectionPermission other.asStr collectionId subject
      permission).Ensures (keeping id before) store := by
  apply ensures_getBind
  apply ensures_bind
  refine Program.ensures_lift (fun found hfound => keeps_change h ?_) fun _ _ => h
  have hpolicy : store.memory.policyOf other.asStr collectionId = some found := by
    unfold foundPolicy at hfound
    split at hfound
    · cases hfound
    · rename_i hpolicy
      cases hfound
      exact hpolicy
  have houtside := outside_policyOf h.memory.separated hne hpolicy
  exact ⟨houtside, houtside.policy found.2 (PolicyFile.collections_of_policyOf hpolicy)⟩

theorem keeps_claimCollection (h : KeptStore id before store) {principal : Principal}
    (hforeign : ∀ projectId, principal.workloadProjectId = some projectId →
      ∃ other : ProjectId, other ≠ id ∧ other.asStr = projectId) (collectionId : String) :
    (AuthorizationService.claimCollection files principal collectionId).Ensures
      (keeping id before) store := by
  apply ensures_bind
  refine Program.ensures_lift (fun projectId hproject => ?_) fun _ _ => h
  obtain ⟨other, hne, rfl⟩ := hforeign projectId (workloadProject_of_authorized hproject)
  apply ensures_getBind
  split
  · split
    · exact ensures_pure h
    · exact ensures_throw h
  · have hspares : Spares id store.memory (.putCollection
        (collectionPolicyKey other.asStr collectionId) ⟨other.asStr, ∅⟩) :=
      ⟨outside_collectionPolicyKey h.memory.separated hne, asStr_ne hne⟩
    apply ensures_bind
    exact (keeps_change h hspares).mono (fun _ _ hkept => ensures_pure hkept)
      (fun _ _ hkept => hkept) fun _ hkept => hkept

theorem keeps_release (h : KeptStore id before store) {principal : Principal}
    (hforeign : ∀ projectId, principal.workloadProjectId = some projectId →
      ∃ other : ProjectId, other ≠ id ∧ other.asStr = projectId) (collectionId : String)
    (outcome : ClaimOutcome) :
    (AuthorizationService.releaseCollectionClaimForPrincipal principal collectionId
      outcome).Ensures (keeping id before) store := by
  unfold AuthorizationService.releaseCollectionClaimForPrincipal
  split
  · exact ensures_pure h
  · apply ensures_bind
    refine Program.ensures_lift (fun projectId hproject => keeps_change h ?_) fun _ _ => h
    obtain ⟨other, hne, rfl⟩ := hforeign projectId (pinnedProject_ok hproject)
    intro key hkey _
    rw [List.mem_singleton.mp hkey]
    exact outside_collectionPolicyKey h.memory.separated hne

theorem keeps_removeCollection (h : KeptStore id before store) {principal : Principal}
    (hforeign : ∀ projectId, principal.workloadProjectId = some projectId →
      ∃ other : ProjectId, other ≠ id ∧ other.asStr = projectId) (collectionId : String) :
    (AuthorizationService.removeCollection files principal collectionId).Ensures
      (keeping id before) store := by
  apply ensures_getBind
  apply ensures_bind
  refine Program.ensures_lift (fun _ _ => ?_) fun _ _ => h
  apply ensures_bind
  refine Program.ensures_lift (fun projectId hproject => keeps_change h ?_) fun _ _ => h
  obtain ⟨other, hne, rfl⟩ := hforeign projectId (pinnedProject_ok hproject)
  exact spares_removedKeys h.memory.separated hne

theorem keeps_call (h : KeptStore id before store) {call : PolicyCall} {project : Option String}
    (hacts : actsFor call = some project)
    (hforeign : ∀ projectId, project = some projectId →
      ∃ other : ProjectId, other ≠ id ∧ other.asStr = projectId) :
    (AuthorizationService.call files call).Ensures (keeping id before) store := by
  cases call with
  | setProjectRole projectId subject role => cases hacts
  | setCollectionPermission projectId collectionId subject permission =>
    cases hacts
    obtain ⟨other, hne, rfl⟩ := hforeign projectId rfl
    exact keeps_setCollectionPermission h hne collectionId subject permission
  | claimCollection principal collectionId =>
    cases hacts
    apply ensures_bind
    exact (keeps_claimCollection h hforeign collectionId).mono
      (fun _ _ hkept => ensures_pure hkept) (fun _ _ hkept => hkept) fun _ hkept => hkept
  | releaseCollectionClaimForPrincipal principal collectionId outcome =>
    cases hacts
    exact keeps_release h hforeign collectionId outcome
  | releaseCollectionClaim collectionId outcome => cases hacts
  | removeCollection principal collectionId =>
    cases hacts
    exact keeps_removeCollection h hforeign collectionId

theorem KeptStore.step (h : KeptStore id before store) {event : TenantEvent}
    (hforeign : OfOthers id event) : KeptStore id before (tenantStep store event) := by
  cases event with
  | call files call faults =>
    obtain ⟨project, hacts, hproject⟩ := hforeign
    have hpost : (keeping id before).holds ((AuthorizationService.call files call).run store
        faults) := keeps_call h hacts hproject faults
    rw [tenantStep]
    generalize (AuthorizationService.call files call).run store faults = ending at hpost ⊢
    obtain ⟨value | error | _, world⟩ := ending
    · exact hpost
    · exact hpost
    · have hkept : KeptStore id before world.state := hpost
      exact ⟨hkept.disk, hkept.disk⟩
  | restart => exact ⟨h.disk, h.disk⟩

theorem undisturbed_of_separated {disk : Option PolicyFile}
    (h : Separated id (disk.getD .default)) : Undisturbed id disk := by
  intro store hrun
  have hkept : KeptStore id (disk.getD .default) store :=
    hrun.invariant (KeptStore id (disk.getD .default)) ⟨Kept.refl h, Kept.refl h⟩
      fun _ _ hstore hforeign => hstore.step hforeign
  exact ⟨hkept.memory.sameFor, hkept.disk.sameFor⟩

end Runs

/-! ### Policies whose keys look joined -/

section Disturbed

variable {id other : ProjectId} {disk : Option PolicyFile} {name : String}

/-- A principal of the project's own credentials. -/
def tenant (id : ProjectId) (subject : String) : Principal :=
  ⟨subject, .workloadCredential, some id.asStr, none⟩

def release (other : ProjectId) (name : String) : TenantEvent :=
  .call Files.empty (.releaseCollectionClaimForPrincipal (tenant other "tenant") name .inserted) []

theorem release_others (hne : other ≠ id) : OfOthers id (release other name) := by
  refine ⟨_, rfl, fun projectId hproject => ?_⟩
  cases hproject
  exact ⟨other, hne, rfl⟩

theorem tenantStep_release (store : Cached PolicyFile) :
    tenantStep store (release other name) =
      ⟨store.memory.apply (.removeCollections [collectionPolicyKey other.asStr name]),
        some (store.memory.apply (.removeCollections [collectionPolicyKey other.asStr name]))⟩ :=
  rfl

/-- Another project can release a policy that stands under its joined key. -/
theorem disturbed_of_others (hne : other ≠ id) {policy : CollectionPolicy}
    (hpolicy : (disk.getD .default).collections[collectionPolicyKey other.asStr name]? =
      some policy) (hproject : policy.projectId = id.asStr) : ¬Undisturbed id disk := by
  intro h
  have hrun : Reaches tenantStep (fun _ event => OfOthers id event) (reopened disk)
      (tenantStep (reopened disk) (release other name)) :=
    (Reaches.refl _).tail _ (release_others hne)
  have hkept := ((h _ hrun).1.entries _ policy hproject).mpr hpolicy
  rw [tenantStep_release] at hkept
  have hgone : ((reopened disk).memory.apply (.removeCollections
      [collectionPolicyKey other.asStr name])).collections[collectionPolicyKey other.asStr name]? =
        none := by
    rw [PolicyFile.collections_removeCollections, if_pos (List.mem_singleton.mpr rfl)]
  cases hgone.symm.trans hkept

def activeProject (id : ProjectId) : Project := { sharedProject with id }

/-- Files in which the project is active. -/
def activeFiles (id : ProjectId) : Files
  | .store => ControlPlaneState.default.withProject (activeProject id)
  | .organizationMembers => .default
  | .projectMembers => .default
  | .collections => none
  | .authorization => .default
  | .apiKeys => .default
  | .serviceAccounts => .default

theorem ask_activeFiles (action : AuthorizationAction) :
    ask (activeFiles id) (authorizeProjectNamed (tenant id "tenant") action id.asStr) = .ok () := by
  have hproject : (activeFiles id .store).project id = some (activeProject id) :=
    Std.ExtTreeMap.getElem?_insert_self
  have hactive : ¬(activeProject id).lifecycle ≠ .active := not_not.mpr rfl
  have hworkload : (tenant id "tenant").kind = .workloadCredential := rfl
  have hpinned : ¬(tenant id "tenant").workloadProjectId ≠ some id.asStr := not_not.mpr rfl
  unfold authorizeProjectNamed authorizeProject
  rw [ProjectId.new_asStr]
  show Task.answer applyChange (activeFiles id) (openStore >>= _) = _
  rw [answer_openStore, hproject]
  show Task.answer applyChange (activeFiles id) (ite _ _ _) = _
  rw [if_neg hactive, if_pos hworkload, if_neg hpinned]
  rfl

/-- What the permission of a found policy decides. -/
theorem decision_of_policy {file : PolicyFile} {key : String} {policy : CollectionPolicy}
    (hpolicy : file.policyOf id.asStr name = some (key, policy)) (action : AuthorizationAction) :
    (AuthorizationService.authorizeCollectionInProject (activeFiles id) file (tenant id "tenant")
      action id.asStr name).isOk =
        policy.permissions["tenant"]?.all (collectionPermissionAllows · action) := by
  unfold AuthorizationService.authorizeCollectionInProject foundPolicy
  rw [ask_activeFiles, except_ok_bind, hpolicy]
  show Except.isOk (ite (Option.map _ policy.permissions["tenant"]? = some false) _ _) = _
  cases policy.permissions["tenant"]? with
  | none => rfl
  | some permission =>
    show Except.isOk (ite (some (collectionPermissionAllows permission action) = some false) _ _) =
      collectionPermissionAllows permission action
    cases collectionPermissionAllows permission action <;> rfl

def setPermission (other : ProjectId) (name : String) (permission : CollectionPermission) :
    TenantEvent :=
  .call Files.empty (.setCollectionPermission other.asStr name "tenant" permission) []

theorem setPermission_others (hne : other ≠ id) (permission : CollectionPermission) :
    OfOthers id (setPermission other name permission) := by
  refine ⟨_, rfl, fun projectId hproject => ?_⟩
  cases hproject
  exact ⟨other, hne, rfl⟩

theorem tenantStep_setPermission {store : Cached PolicyFile} {key : String}
    {policy : CollectionPolicy} (permission : CollectionPermission)
    (hpolicy : store.memory.policyOf other.asStr name = some (key, policy)) :
    (tenantStep store (setPermission other name permission)).memory =
      store.memory.apply (.putCollection key
        { policy with permissions := policy.permissions.insert "tenant" permission }) := by
  have hfound : foundPolicy store.memory other.asStr name = .ok (key, policy) := by
    rw [foundPolicy, hpolicy]
  have hcall : AuthorizationService.call Files.empty
      (.setCollectionPermission other.asStr name "tenant" permission) =
        (Program.get >>= fun service =>
          Program.lift (foundPolicy service.memory other.asStr name) >>= fun found =>
            AuthorizationService.change (.putCollection found.1
              { found.2 with permissions := found.2.permissions.insert "tenant" permission })) :=
    rfl
  have hrun : (AuthorizationService.call Files.empty
      (.setCollectionPermission other.asStr name "tenant" permission)).run store [] =
        (Program.lift (foundPolicy store.memory other.asStr name) >>= fun found =>
          AuthorizationService.change (.putCollection found.1
            { found.2 with permissions := found.2.permissions.insert "tenant" permission })).run
              store [] := by
    rw [hcall]
    rfl
  rw [hfound] at hrun
  rw [setPermission, tenantStep, hrun]
  rfl

/-- A permission that decides otherwise. -/
def contrary (allowed : Bool) : CollectionPermission := if allowed then .read else .write

theorem contrary_allows (allowed : Bool) :
    collectionPermissionAllows (contrary allowed) .collectionWrite = !allowed := by
  cases allowed <;> rfl

/-- Another project can set permissions of its old policy under the joined key. -/
theorem disturbed_of_own (hne : other ≠ id) {policy : CollectionPolicy}
    (hpolicy : (disk.getD .default).collections[collectionPolicyKey id.asStr name]? = some policy)
    (hproject : policy.projectId = other.asStr) : ¬Undisturbed id disk := by
  intro h
  let legacy := collectionPolicyKey id.asStr name
  let released := tenantStep (reopened disk) (release other legacy)
  let allowed := policy.permissions["tenant"]?.all
    (collectionPermissionAllows · .collectionWrite)
  have hother : collectionPolicyKey other.asStr legacy ≠ legacy := fun hkey =>
    hne (collectionPolicyKey_project hkey)
  -- After the release the other project finds its old policy.
  have hreleased : released.memory.collections[legacy]? = some policy := by
    show (PolicyFile.apply _ _).collections[legacy]? = some policy
    rw [PolicyFile.collections_removeCollections, if_neg (by simpa using hother.symm)]
    exact hpolicy
  have habsent : collectionPolicyKey other.asStr legacy ∉ released.memory.collections := by
    rw [Std.ExtTreeMap.mem_iff_isSome_getElem?]
    show ¬((PolicyFile.apply _ _).collections[_]?).isSome
    rw [PolicyFile.collections_removeCollections, if_pos (List.mem_singleton.mpr rfl)]
    exact Bool.false_ne_true
  have hfound : released.memory.policyOf other.asStr legacy = some (legacy, policy) := by
    have hlegacy : (released.memory.collections[legacy]?.map CollectionPolicy.projectId) =
        some other.asStr := by
      rw [hreleased]
      exact congrArg some hproject
    unfold PolicyFile.policyOf PolicyFile.policyKey
    rw [if_neg habsent, if_pos hlegacy]
    show (released.memory.collections[legacy]? >>= _) = _
    rw [hreleased]
    rfl
  have hset := tenantStep_setPermission (contrary allowed) hfound
  have hfirst : Reaches tenantStep (fun _ event => OfOthers id event) (reopened disk) released :=
    (Reaches.refl _).tail _ (release_others hne)
  have hrun : Reaches tenantStep (fun _ event => OfOthers id event) (reopened disk)
      (tenantStep released (setPermission other legacy (contrary allowed))) :=
    hfirst.tail _ (setPermission_others hne _)
  have hjoined {file : PolicyFile} {found : CollectionPolicy}
      (hstored : file.collections[legacy]? = some found) :
      file.policyOf id.asStr name = some (legacy, found) := by
    have hmem : collectionPolicyKey id.asStr name ∈ file.collections :=
      Std.ExtTreeMap.mem_iff_isSome_getElem?.mpr (Option.isSome_of_eq_some hstored)
    unfold PolicyFile.policyOf PolicyFile.policyKey
    rw [if_pos hmem]
    show (file.collections[legacy]? >>= _) = _
    rw [hstored]
    rfl
  have hafter : (tenantStep released (setPermission other legacy
      (contrary allowed))).memory.collections[legacy]? = some { policy with
        permissions := policy.permissions.insert "tenant" (contrary allowed) } := by
    rw [hset, PolicyFile.collections_putCollection, if_pos rfl]
  have hsame := (h _ hrun).1.decisions (activeFiles id) (tenant id "tenant") .collectionWrite name
  have hdecision := congrArg Except.isOk hsame
  rw [decision_of_policy (hjoined hafter), decision_of_policy (hjoined hpolicy),
    Std.ExtTreeMap.getElem?_insert_self] at hdecision
  have hcontrary : (!allowed) = allowed := (contrary_allows allowed).symm.trans hdecision
  cases hallowed : allowed with
  | true =>
    rw [hallowed] at hcontrary
    cases hcontrary
  | false =>
    rw [hallowed] at hcontrary
    cases hcontrary

/-- What a project sees is never changed by others exactly when joined keys are only
used for policies of their project. -/
theorem undisturbed_iff : Undisturbed id disk ↔ Separated id (disk.getD .default) := by
  constructor
  · intro h
    constructor
    · intro other name policy hne hpolicy hproject
      exact disturbed_of_others hne hpolicy hproject h
    · intro other name policy hne hpolicy hproject
      exact disturbed_of_own hne hpolicy hproject h
  · exact undisturbed_of_separated

end Disturbed

/-! ### An old policy whose collection has a separator in its name -/

def tenantB : ProjectId := ⟨"b", by decide⟩

/-- The default project's collection is named like a joined key of the other project. -/
def lookalike : PolicyFile :=
  PolicyFile.default.apply (.putCollection (collectionPolicyKey "b" "docs") ⟨"default", ∅⟩)

theorem not_undisturbed : ¬Undisturbed .defaultProject (some lookalike) := by
  have hne : tenantB ≠ .defaultProject := by decide
  have hpolicy : lookalike.collections[collectionPolicyKey tenantB.asStr "docs"]? =
      some ⟨"default", ∅⟩ := Std.ExtTreeMap.getElem?_insert_self
  exact disturbed_of_others hne hpolicy rfl

end Ketebe.ControlPlane
