import Ketebe.ControlPlaneCodec
import Ketebe.Lib.Runs

/-!
Runs of the control-plane store over its file. The checks of the operations are
those of the loader, so that every state can be loaded again, unless the
bootstrap inserts the default organization beside another one with its slug.
-/
namespace Ketebe

open Lib.ByteCodec Lib.KeyedTable Lib.Runs

namespace ControlPlaneState

/-! ### What the loader checks -/

def OrganizationSlugsUnique (state : ControlPlaneState) : Prop :=
  UniqueBy (fun organization => organization.slug.asStr) state.organizations

/-- Unique within their organization. -/
def ProjectSlugsUnique (state : ControlPlaneState) : Prop :=
  UniqueBy (fun project => (project.organizationId, project.slug.asStr)) state.projects

structure Consistent (state : ControlPlaneState) : Prop where
  parented : state.Parented
  organizationSlugs : state.OrganizationSlugsUnique
  projectSlugs : state.ProjectSlugsUnique

variable {state : ControlPlaneState}

theorem ensureOrganizationSlugUnique_ok_iff {organization : Organization}
    {exceptId : Option String} :
    state.ensureOrganizationSlugUnique organization exceptId = .ok () ↔
      ∀ (key : String) (other : Organization), state.organizations[key]? = some other →
        other.slug.asStr = organization.slug.asStr → some other.id.asStr = exceptId := by
  have hany : (state.organizations.toList.any fun entry =>
      decide (entry.2.slug.asStr = organization.slug.asStr ∧ some entry.2.id.asStr ≠ exceptId)) =
        true ↔ ∃ (key : String) (other : Organization), state.organizations[key]? = some other ∧
          other.slug.asStr = organization.slug.asStr ∧ some other.id.asStr ≠ exceptId := by
    simp only [List.any_eq_true, decide_eq_true_eq, Prod.exists,
      Std.ExtTreeMap.mem_toList_iff_getElem?_eq_some]
  unfold ensureOrganizationSlugUnique
  split
  · rename_i htaken
    obtain ⟨key, other, hother, hslug, hid⟩ := hany.mp htaken
    exact ⟨nofun, fun h => absurd (h key other hother hslug) hid⟩
  · rename_i hfree
    refine ⟨fun _ key other hother hslug => ?_, fun _ => rfl⟩
    by_contra hid
    exact hfree (hany.mpr ⟨key, other, hother, hslug, hid⟩)

theorem ensureProjectSlugUnique_ok_iff {project : Project} {exceptId : Option String} :
    state.ensureProjectSlugUnique project exceptId = .ok () ↔
      ∀ (key : String) (other : Project), state.projects[key]? = some other →
        other.organizationId = project.organizationId → other.slug.asStr = project.slug.asStr →
          some other.id.asStr = exceptId := by
  have hany : (state.projects.toList.any fun entry =>
      decide (entry.2.organizationId = project.organizationId ∧
        entry.2.slug.asStr = project.slug.asStr ∧ some entry.2.id.asStr ≠ exceptId)) = true ↔
      ∃ (key : String) (other : Project), state.projects[key]? = some other ∧
        other.organizationId = project.organizationId ∧
          other.slug.asStr = project.slug.asStr ∧ some other.id.asStr ≠ exceptId := by
    simp only [List.any_eq_true, decide_eq_true_eq, Prod.exists,
      Std.ExtTreeMap.mem_toList_iff_getElem?_eq_some]
  unfold ensureProjectSlugUnique
  split
  · rename_i htaken
    obtain ⟨key, other, hother, howner, hslug, hid⟩ := hany.mp htaken
    exact ⟨nofun, fun h => absurd (h key other hother howner hslug) hid⟩
  · rename_i hfree
    refine ⟨fun _ key other hother howner hslug => ?_, fun _ => rfl⟩
    by_contra hid
    exact hfree (hany.mpr ⟨key, other, hother, howner, hslug, hid⟩)

theorem ensureProjectParentExists_ok_iff {project : Project} :
    state.ensureProjectParentExists project = .ok () ↔
      project.organizationId.asStr ∈ state.organizations := by
  unfold ensureProjectParentExists
  split
  · rename_i hparent
    exact ⟨fun _ => hparent, fun _ => rfl⟩
  · rename_i hmissing
    exact ⟨nofun, fun h => absurd h hmissing⟩

theorem checkProject_ok_iff {project : Project} : state.checkProject project = .ok () ↔
    project.organizationId.asStr ∈ state.organizations ∧
      state.ensureProjectSlugUnique project (some project.id.asStr) = .ok () := by
  rw [checkProject, except_check_ok, mapError_ok_iff, ensureProjectParentExists_ok_iff]

/-- The loader accepts the consistent states. -/
theorem validateLoadedState_ok_iff (hstored : state.Stored) :
    state.validateLoadedState = .ok () ↔ state.Consistent := by
  rw [validateLoadedState, except_check_ok]
  simp only [except_forM_ok, mem_values, forall_exists_index,
    ensureOrganizationSlugUnique_ok_iff, checkProject_ok_iff, ensureProjectSlugUnique_ok_iff]
  constructor
  · intro ⟨horganizations, hprojects⟩
    refine ⟨fun key project hproject => (hprojects project key hproject).1, ?_, ?_⟩
    · intro key key' first second hfirst hsecond hslug
      have hid := horganizations second key' hsecond key first hfirst hslug
      rw [← hstored.organizationKeys key first hfirst, ← hstored.organizationKeys key' second hsecond]
      exact Option.some.inj hid
    · intro key key' first second hfirst hsecond hfields
      obtain ⟨howner, hslug⟩ := Prod.mk.inj hfields
      have hid := (hprojects second key' hsecond).2 key first hfirst howner hslug
      rw [← hstored.projectKeys key first hfirst, ← hstored.projectKeys key' second hsecond]
      exact Option.some.inj hid
  · intro hconsistent
    constructor
    · intro organization key horganization key' other hother hslug
      obtain rfl := hconsistent.organizationSlugs key' key other organization hother horganization
        hslug
      rw [Option.some.inj (hother.symm.trans horganization)]
    · intro project key hproject
      refine ⟨hconsistent.parented key project hproject, ?_⟩
      intro key' other hother howner hslug
      obtain rfl := hconsistent.projectSlugs key' key other project hother hproject
        (Prod.ext howner hslug)
      rw [Option.some.inj (hother.symm.trans hproject)]

theorem stored_default : default.Stored where
  organizationKeys := keyed_empty
  projectKeys := keyed_empty
  organization := nofun
  project := nofun

theorem consistent_default : default.Consistent where
  parented _ _ h := by
    rw [default, Std.ExtTreeMap.getElem?_empty] at h
    cases h
  organizationSlugs := UniqueBy.empty
  projectSlugs := UniqueBy.empty

/-! ### What the changes keep -/

theorem Stored.withOrganization (h : state.Stored) {organization : Organization}
    (hrepresentable : organization.Representable) :
    (state.withOrganization organization).Stored where
  organizationKeys := h.organizationKeys.insert rfl
  projectKeys := h.projectKeys
  organization other hother := by
    obtain ⟨key, hkey⟩ := mem_values.mp hother
    have hkey : (state.organizations.insert organization.id.asStr organization)[key]? =
        some other := hkey
    rw [Std.ExtTreeMap.getElem?_insert] at hkey
    split at hkey
    · exact Option.some.inj hkey ▸ hrepresentable
    · exact h.organization other (mem_values.mpr ⟨key, hkey⟩)
  project := h.project

theorem Stored.withProject (h : state.Stored) {project : Project}
    (hrepresentable : project.Representable) : (state.withProject project).Stored where
  organizationKeys := h.organizationKeys
  projectKeys := h.projectKeys.insert rfl
  organization := h.organization
  project other hother := by
    obtain ⟨key, hkey⟩ := mem_values.mp hother
    have hkey : (state.projects.insert project.id.asStr project)[key]? = some other := hkey
    rw [Std.ExtTreeMap.getElem?_insert] at hkey
    split at hkey
    · exact Option.some.inj hkey ▸ hrepresentable
    · exact h.project other (mem_values.mpr ⟨key, hkey⟩)

theorem getElem?_of_erase {V : Type} {table : Std.ExtTreeMap String V compare} {key erased : String}
    {value : V} (h : (table.erase erased)[key]? = some value) : table[key]? = some value := by
  rw [Std.ExtTreeMap.getElem?_erase] at h
  split at h
  · cases h
  · exact h

theorem Stored.removeOrganization (h : state.Stored) (id : OrganizationId) :
    (state.apply (.removeOrganization id)).Stored where
  organizationKeys := h.organizationKeys.erase id.asStr
  projectKeys := h.projectKeys
  organization other hother := by
    obtain ⟨key, hkey⟩ := mem_values.mp hother
    exact h.organization other (mem_values.mpr ⟨key, getElem?_of_erase hkey⟩)
  project := h.project

theorem Stored.removeProject (h : state.Stored) (id : ProjectId) :
    (state.apply (.removeProject id)).Stored where
  organizationKeys := h.organizationKeys
  projectKeys := h.projectKeys.erase id.asStr
  organization := h.organization
  project other hother := by
    obtain ⟨key, hkey⟩ := mem_values.mp hother
    exact h.project other (mem_values.mpr ⟨key, getElem?_of_erase hkey⟩)

theorem Consistent.withOrganization (h : state.Consistent) {organization : Organization}
    (hslug : ∀ (key : String) (other : Organization), state.organizations[key]? = some other →
      other.slug.asStr = organization.slug.asStr → key = organization.id.asStr) :
    (state.withOrganization organization).Consistent :=
  ⟨h.parented.withOrganization organization, h.organizationSlugs.insert hslug, h.projectSlugs⟩

theorem Consistent.withProject (h : state.Consistent) {project : Project}
    (hparent : project.organizationId.asStr ∈ state.organizations)
    (hslug : ∀ (key : String) (other : Project), state.projects[key]? = some other →
      other.organizationId = project.organizationId → other.slug.asStr = project.slug.asStr →
        key = project.id.asStr) : (state.withProject project).Consistent := by
  refine ⟨h.parented.withProject hparent, h.organizationSlugs, h.projectSlugs.insert ?_⟩
  intro key other hother hfields
  obtain ⟨howner, hsame⟩ := Prod.mk.inj hfields
  exact hslug key other hother howner hsame

theorem Consistent.removeOrganization (h : state.Consistent) {id : OrganizationId}
    (hnone : ∀ (key : String) (project : Project), state.projects[key]? = some project →
      project.organizationId ≠ id) : (state.apply (.removeOrganization id)).Consistent :=
  ⟨h.parented.removeOrganization hnone, h.organizationSlugs.erase id.asStr, h.projectSlugs⟩

theorem Consistent.removeProject (h : state.Consistent) (id : ProjectId) :
    (state.apply (.removeProject id)).Consistent :=
  ⟨h.parented.removeProject id, h.organizationSlugs, h.projectSlugs.erase id.asStr⟩

/-! ### What the operations check -/

variable {change : ControlPlaneChange}

theorem createOrganization_slug {organization : Organization}
    (h : state.createOrganization organization = .ok change) :
    ∀ (key : String) (other : Organization), state.organizations[key]? = some other →
      other.slug.asStr = organization.slug.asStr → key = organization.id.asStr := by
  unfold createOrganization at h
  split at h
  · cases h
  · obtain ⟨_, hunique, -⟩ := except_bind_ok.mp h
    intro key other hother hslug
    cases ensureOrganizationSlugUnique_ok_iff.mp hunique key other hother hslug

theorem updateOrganization_slug {organization : Organization} (hstored : state.Stored)
    (h : state.updateOrganization organization = .ok change) :
    ∀ (key : String) (other : Organization), state.organizations[key]? = some other →
      other.slug.asStr = organization.slug.asStr → key = organization.id.asStr := by
  unfold updateOrganization at h
  split at h
  · cases h
  · obtain ⟨_, hunique, -⟩ := except_bind_ok.mp h
    intro key other hother hslug
    rw [← hstored.organizationKeys key other hother]
    exact Option.some.inj (ensureOrganizationSlugUnique_ok_iff.mp hunique key other hother hslug)

theorem createProject_slug {project : Project} (h : state.createProject project = .ok change) :
    ∀ (key : String) (other : Project), state.projects[key]? = some other →
      other.organizationId = project.organizationId → other.slug.asStr = project.slug.asStr →
        key = project.id.asStr := by
  unfold createProject at h
  split at h
  · cases h
  · obtain ⟨_, -, h⟩ := except_bind_ok.mp h
    obtain ⟨_, hunique, -⟩ := except_bind_ok.mp h
    intro key other hother howner hslug
    cases ensureProjectSlugUnique_ok_iff.mp hunique key other hother howner hslug

theorem updateProject_checks {project : Project} (hstored : state.Stored)
    (h : state.updateProject project = .ok change) :
    (∃ existing, state.project project.id = some existing ∧
      existing.organizationId = project.organizationId) ∧
    ∀ (key : String) (other : Project), state.projects[key]? = some other →
      other.organizationId = project.organizationId → other.slug.asStr = project.slug.asStr →
        key = project.id.asStr := by
  unfold updateProject at h
  split at h
  · cases h
  · rename_i existing hexisting
    split at h
    · cases h
    · rename_i howner
      obtain ⟨_, -, h⟩ := except_bind_ok.mp h
      obtain ⟨_, hunique, -⟩ := except_bind_ok.mp h
      refine ⟨⟨existing, hexisting, not_not.mp howner⟩, fun key other hother hsame hslug => ?_⟩
      rw [← hstored.projectKeys key other hother]
      exact Option.some.inj
        (ensureProjectSlugUnique_ok_iff.mp hunique key other hother hsame hslug)

theorem bootstrapDefault_ok {createdAtUnix : ℕ}
    (h : state.bootstrapDefault createdAtUnix = .ok (some change)) :
    state.organization .defaultOrganization = none ∧ state.project .defaultProject = none ∧
      ∃ organization project, change = .insertDefaults organization project ∧
        organization.id = .defaultOrganization ∧ organization.slug.asStr = "default" ∧
        project.id = .defaultProject ∧ project.organizationId = .defaultOrganization ∧
        (createdAtUnix < 256 ^ 8 → organization.Representable ∧ project.Representable) := by
  unfold bootstrapDefault at h
  split at h
  · split at h <;> cases h
  · rename_i horganization hproject
    obtain ⟨timestamps, htimestamps, h⟩ := except_bind_ok.mp h
    obtain ⟨organization, hneworganization, h⟩ := except_bind_ok.mp h
    obtain ⟨project, hnewproject, h⟩ := except_bind_ok.mp h
    cases h
    have hneworganization := mapError_ok_iff.mp hneworganization
    have hnewproject := mapError_ok_iff.mp hnewproject
    have hupdated : timestamps.updatedAtUnix = createdAtUnix := by
      have htimestamps := mapError_ok_iff.mp htimestamps
      unfold ResourceTimestamps.new at htimestamps
      split at htimestamps
      · cases htimestamps
      · cases htimestamps
        rfl
    refine ⟨horganization, hproject, organization, project, rfl,
      (Organization.new_ok hneworganization).1, Organization.new_slug hneworganization,
      (Project.new_ok hnewproject).1, (Project.new_ok hnewproject).2.1, fun hlt => ⟨?_, ?_⟩⟩
    · exact Organization.new_representable (hupdated ▸ hlt) hneworganization
    · exact Project.new_representable (hupdated ▸ hlt) hnewproject
  · cases h

end ControlPlaneState

/-! ### The store and its file -/

/-- The state in memory and the bytes of the file, if there is one. -/
structure ControlPlaneStore where
  file : Option Bytes
  state : ControlPlaneState

namespace ControlPlaneStore

open ControlPlaneState

def openStore (file : Option Bytes) : Except LoadError ControlPlaneStore :=
  match file with
  | some bytes => do
    let state ← decodeState bytes
    pure ⟨some bytes, state⟩
  | none => .ok ⟨none, .default⟩

/-- How replacing the file ends. -/
inductive PersistOutcome where
  | staleTempRemains
  | writeFails
  | written
  | directorySyncFails
  deriving DecidableEq, Repr

/-- Writes the next state beside the file and moves it there; the state in
memory follows when all of it succeeds. -/
def persist (store : ControlPlaneStore) (next : ControlPlaneState) (outcome : PersistOutcome) :
    ControlPlaneStore × Except ControlPlaneStoreError Unit :=
  if outcome = .staleTempRemains then (store, .error .io)
  else match encodeState next with
    | .error error => (store, .error error)
    | .ok bytes =>
        match outcome with
        | .written => (⟨some bytes, next⟩, .ok ())
        | .directorySyncFails => (⟨some bytes, store.state⟩, .error .io)
        | _ => (store, .error .io)

/-- The operations. Their arguments come from the constructors. -/
inductive Request where
  | bootstrapDefault (createdAtUnix : UInt64)
  | createOrganization (organization : Organization) (built : organization.Representable)
  | updateOrganization (organization : Organization) (built : organization.Representable)
  | createProject (project : Project) (built : project.Representable)
  | updateProject (project : Project) (built : project.Representable)
  | deleteProject (id : ProjectId)
  | deleteOrganization (id : OrganizationId)

/-- The checks of an operation, and what it then changes. -/
def plan (state : ControlPlaneState) :
    Request → Except ControlPlaneStoreError (Option ControlPlaneChange)
  | .bootstrapDefault createdAtUnix => state.bootstrapDefault createdAtUnix.toNat
  | .createOrganization organization _ => (state.createOrganization organization).map some
  | .updateOrganization organization _ => (state.updateOrganization organization).map some
  | .createProject project _ => (state.createProject project).map some
  | .updateProject project _ => (state.updateProject project).map some
  | .deleteProject id => (state.deleteProject id).map some
  | .deleteOrganization id => (state.deleteOrganization id).map some

def execute (store : ControlPlaneStore) (request : Request) (outcome : PersistOutcome) :
    ControlPlaneStore × Except ControlPlaneStoreError Unit :=
  match plan store.state request with
  | .error error => (store, .error error)
  | .ok none => (store, .ok ())
  | .ok (some change) => store.persist (store.state.apply change) outcome

abbrev Event := Request × PersistOutcome

def step (store : ControlPlaneStore) (event : Event) : ControlPlaneStore :=
  (store.execute event.1 event.2).1

/-- Opened on an empty directory. -/
def opened : ControlPlaneStore := ⟨none, .default⟩

/-- The bootstrap does not meet another organization with the slug that it
inserts, and the directory is synchronized after the file was moved. -/
structure Undisturbed (store : ControlPlaneStore) (event : Event) : Prop where
  bootstrap : ∀ createdAtUnix, event.1 = .bootstrapDefault createdAtUnix →
    store.state.organization .defaultOrganization = none →
    store.state.project .defaultProject = none →
    ∀ (key : String) (other : Organization), store.state.organizations[key]? = some other →
      other.slug.asStr ≠ "default"
  synced : event.2 ≠ .directorySyncFails

variable {store : ControlPlaneStore}

/-! ### What an operation keeps -/

theorem plan_some_ok {result : Except ControlPlaneStoreError ControlPlaneChange}
    {change : ControlPlaneChange} (h : result.map some = .ok (some change)) :
    result = .ok change := by
  cases result with
  | error error => cases h
  | ok other =>
    cases h
    rfl

theorem plan_keeps {state : ControlPlaneState} {request : Request} {change : ControlPlaneChange}
    (hstored : state.Stored) (hconsistent : state.Consistent)
    (hbootstrap : ∀ createdAtUnix, request = .bootstrapDefault createdAtUnix →
      state.organization .defaultOrganization = none → state.project .defaultProject = none →
      ∀ (key : String) (other : Organization), state.organizations[key]? = some other →
        other.slug.asStr ≠ "default")
    (h : plan state request = .ok (some change)) :
    (state.apply change).Stored ∧ (state.apply change).Consistent := by
  cases request with
  | bootstrapDefault createdAtUnix =>
    obtain ⟨hnoOrganization, hnoProject, organization, project, rfl, hoid, hslug, hpid, howner,
      hbuilt⟩ := bootstrapDefault_ok h
    obtain ⟨hbuiltOrganization, hbuiltProject⟩ := hbuilt createdAtUnix.toNat_lt
    have hfree := hbootstrap createdAtUnix rfl hnoOrganization hnoProject
    have horganization : (state.withOrganization organization).Consistent :=
      hconsistent.withOrganization fun key other hother hsame =>
        absurd (hsame.trans hslug) (hfree key other hother)
    refine ⟨(hstored.withOrganization hbuiltOrganization).withProject hbuiltProject,
      horganization.withProject ?_ fun key other hother hsame _ => ?_⟩
    · rw [howner, ← hoid]
      exact Std.ExtTreeMap.mem_insert_self
    · -- No project belongs to an organization that does not exist.
      have hparent := hconsistent.parented key other hother
      rw [hsame, howner, Std.ExtTreeMap.mem_iff_isSome_getElem?] at hparent
      have hnone : state.organizations[OrganizationId.defaultOrganization.asStr]? = none :=
        hnoOrganization
      rw [hnone] at hparent
      cases hparent
  | createOrganization organization built =>
    have h := plan_some_ok h
    obtain ⟨rfl, -⟩ := createOrganization_ok h
    exact ⟨hstored.withOrganization built, hconsistent.withOrganization (createOrganization_slug h)⟩
  | updateOrganization organization built =>
    have h := plan_some_ok h
    obtain rfl := updateOrganization_ok h
    exact ⟨hstored.withOrganization built,
      hconsistent.withOrganization (updateOrganization_slug hstored h)⟩
  | createProject project built =>
    have h := plan_some_ok h
    obtain ⟨rfl, -, hparent⟩ := createProject_ok h
    exact ⟨hstored.withProject built, hconsistent.withProject hparent (createProject_slug h)⟩
  | updateProject project built =>
    have h := plan_some_ok h
    obtain ⟨rfl, hparent⟩ := updateProject_ok h
    exact ⟨hstored.withProject built,
      hconsistent.withProject hparent (updateProject_checks hstored h).2⟩
  | deleteProject id =>
    obtain rfl := deleteProject_ok (plan_some_ok h)
    exact ⟨hstored.removeProject id, hconsistent.removeProject id⟩
  | deleteOrganization id =>
    obtain ⟨rfl, hnone⟩ := deleteOrganization_ok (plan_some_ok h)
    exact ⟨hstored.removeOrganization id, hconsistent.removeOrganization hnone⟩

/-- What replacing the file can do to the store. -/
theorem persist_cases (store : ControlPlaneStore) (next : ControlPlaneState)
    (outcome : PersistOutcome) :
    (∃ error, store.persist next outcome = (store, .error error)) ∨
      ∃ bytes, encodeState next = .ok bytes ∧
        (store.persist next outcome = (⟨some bytes, next⟩, .ok ()) ∨
          outcome = .directorySyncFails ∧
            store.persist next outcome = (⟨some bytes, store.state⟩, .error .io)) := by
  unfold persist
  split
  · exact Or.inl ⟨_, rfl⟩
  · split
    · exact Or.inl ⟨_, rfl⟩
    · rename_i bytes hbytes
      cases outcome with
      | written => exact Or.inr ⟨bytes, hbytes, Or.inl rfl⟩
      | directorySyncFails => exact Or.inr ⟨bytes, hbytes, Or.inr ⟨rfl, rfl⟩⟩
      | staleTempRemains => exact Or.inl ⟨_, rfl⟩
      | writeFails => exact Or.inl ⟨_, rfl⟩

/-- An operation leaves the store alone, or carries out its plan. -/
theorem execute_cases (store : ControlPlaneStore) (request : Request) (outcome : PersistOutcome) :
    (store.execute request outcome).1 = store ∨
      ∃ change bytes, plan store.state request = .ok (some change) ∧
        encodeState (store.state.apply change) = .ok bytes ∧
        (store.execute request outcome = (⟨some bytes, store.state.apply change⟩, .ok ()) ∨
          outcome = .directorySyncFails ∧
            store.execute request outcome = (⟨some bytes, store.state⟩, .error .io)) := by
  unfold execute
  split
  · exact Or.inl rfl
  · exact Or.inl rfl
  · rename_i change hplan
    rcases persist_cases store (store.state.apply change) outcome with
      ⟨error, hpersist⟩ | ⟨bytes, hbytes, hpersist⟩
    · exact Or.inl (by rw [hpersist])
    · exact Or.inr ⟨change, bytes, hplan, hbytes, hpersist⟩

/-- An error other than of the file system leaves the state and the file alone. -/
theorem execute_error {request : Request} {outcome : PersistOutcome}
    {error : ControlPlaneStoreError} (h : (store.execute request outcome).2 = .error error)
    (hdomain : error ≠ .io) : (store.execute request outcome).1 = store := by
  rcases execute_cases store request outcome with hsame | ⟨change, bytes, -, -, hdone | ⟨-, hio⟩⟩
  · exact hsame
  · rw [hdone] at h
    cases h
  · rw [hio] at h
    cases h
    exact absurd rfl hdomain

/-- A project that is put keeps the organization of the one that it replaces. -/
theorem owner_of_insert {projects : Std.ExtTreeMap String Project compare} {put : Project}
    {key : String} {before after : Project} (hbefore : projects[key]? = some before)
    (howner : ∀ existing, projects[put.id.asStr]? = some existing →
      existing.organizationId = put.organizationId)
    (hafter : (projects.insert put.id.asStr put)[key]? = some after) :
    after.organizationId = before.organizationId := by
  rw [Std.ExtTreeMap.getElem?_insert] at hafter
  split at hafter
  · rename_i hkey
    obtain rfl := compare_eq_iff_eq.mp hkey
    obtain rfl := Option.some.inj hafter
    exact (howner before hbefore).symm
  · rw [Option.some.inj (hafter.symm.trans hbefore)]

theorem plan_owner {state : ControlPlaneState} (hstored : state.Stored) {request : Request}
    {change : ControlPlaneChange} (h : plan state request = .ok (some change)) {id : ProjectId}
    {before after : Project} (hbefore : state.project id = some before)
    (hafter : (state.apply change).project id = some after) :
    after.organizationId = before.organizationId := by
  cases request with
  | bootstrapDefault createdAtUnix =>
    obtain ⟨-, hnone, organization, project, rfl, -, -, hid, -⟩ := bootstrapDefault_ok h
    refine owner_of_insert hbefore (fun existing hexisting => ?_) hafter
    rw [hid] at hexisting
    cases hnone.symm.trans hexisting
  | createOrganization organization built =>
    obtain ⟨rfl, -⟩ := createOrganization_ok (plan_some_ok h)
    rw [Option.some.inj (hafter.symm.trans hbefore)]
  | updateOrganization organization built =>
    obtain rfl := updateOrganization_ok (plan_some_ok h)
    rw [Option.some.inj (hafter.symm.trans hbefore)]
  | createProject project built =>
    obtain ⟨rfl, hnew, -⟩ := createProject_ok (plan_some_ok h)
    refine owner_of_insert hbefore (fun existing hexisting => ?_) hafter
    rw [Std.ExtTreeMap.mem_iff_isSome_getElem?, hexisting] at hnew
    exact absurd rfl hnew
  | updateProject project built =>
    have h := plan_some_ok h
    obtain ⟨rfl, -⟩ := updateProject_ok h
    obtain ⟨⟨existing, hexisting, howner⟩, -⟩ := updateProject_checks hstored h
    refine owner_of_insert hbefore (fun other hother => ?_) hafter
    rw [← Option.some.inj (hexisting.symm.trans hother), howner]
  | deleteProject removed =>
    obtain rfl := deleteProject_ok (plan_some_ok h)
    rw [Option.some.inj ((getElem?_of_erase hafter).symm.trans hbefore)]
  | deleteOrganization removed =>
    obtain ⟨rfl, -⟩ := deleteOrganization_ok (plan_some_ok h)
    rw [Option.some.inj (hafter.symm.trans hbefore)]

/-- No operation moves a project to another organization. -/
theorem execute_owner (hstored : store.state.Stored) {request : Request} {outcome : PersistOutcome}
    {id : ProjectId} {before after : Project} (hbefore : store.state.project id = some before)
    (hafter : (store.execute request outcome).1.state.project id = some after) :
    after.organizationId = before.organizationId := by
  rcases execute_cases store request outcome with hsame | ⟨change, bytes, hplan, -, hdone⟩
  · rw [hsame] at hafter
    rw [Option.some.inj (hafter.symm.trans hbefore)]
  · rcases hdone with hdone | ⟨-, hdone⟩
    · rw [hdone] at hafter
      exact plan_owner hstored hplan hbefore hafter
    · rw [hdone] at hafter
      rw [Option.some.inj (hafter.symm.trans hbefore)]

/-! ### Runs -/

/-- The file holds the state in memory, which passes the checks of the loader. -/
structure Sound (store : ControlPlaneStore) : Prop where
  stored : store.state.Stored
  consistent : store.state.Consistent
  encoded : ∃ bytes, encodeState store.state = .ok bytes
  file : store.file = none ∧ store.state = .default ∨
    ∃ bytes, store.file = some bytes ∧ encodeState store.state = .ok bytes

theorem sound_opened : opened.Sound where
  stored := stored_default
  consistent := consistent_default
  encoded := ⟨_, rfl⟩
  file := Or.inl ⟨rfl, rfl⟩

theorem Sound.step (h : store.Sound) {event : Event} (hundisturbed : store.Undisturbed event) :
    (store.step event).Sound := by
  unfold ControlPlaneStore.step
  rcases execute_cases store event.1 event.2 with hsame | ⟨change, bytes, hplan, hbytes, hdone⟩
  · rwa [hsame]
  · rcases hdone with hdone | ⟨hsync, -⟩
    · obtain ⟨hstored, hconsistent⟩ :=
        plan_keeps h.stored h.consistent hundisturbed.bootstrap hplan
      rw [hdone]
      exact ⟨hstored, hconsistent, ⟨bytes, hbytes⟩, Or.inr ⟨bytes, rfl, hbytes⟩⟩
    · exact absurd hsync hundisturbed.synced

theorem Sound.decode (h : store.Sound) {bytes : Bytes} (hbytes : encodeState store.state = .ok bytes) :
    decodeState bytes = .ok store.state := by
  rw [decodeState_encodeState h.stored hbytes,
    (validateLoadedState_ok_iff h.stored).mpr h.consistent]
  rfl

theorem Sound.restart (h : store.Sound) : openStore store.file = .ok store := by
  obtain ⟨file, state⟩ := store
  rcases h.file with ⟨hfile, hstate⟩ | ⟨bytes, hfile, hbytes⟩
  · cases hfile
    cases hstate
    rfl
  · cases hfile
    rw [openStore, h.decode hbytes]
    rfl

/-- What the store promises in a state, and for the next operation there. -/
structure Integrity (store : ControlPlaneStore) : Prop where
  parented : store.state.Parented
  organizationSlugs : store.state.OrganizationSlugsUnique
  projectSlugs : store.state.ProjectSlugsUnique
  owners : ∀ request outcome id before after, store.state.project id = some before →
    (store.execute request outcome).1.state.project id = some after →
      after.organizationId = before.organizationId
  errors : ∀ request outcome error, (store.execute request outcome).2 = .error error →
    error ≠ .io → (store.execute request outcome).1 = store
  roundTrip : ∃ bytes, encodeState store.state = .ok bytes ∧
    decodeState bytes = .ok store.state
  restart : openStore store.file = .ok store

/-- Undisturbed runs keep the store's promises. -/
theorem integrity_of_undisturbed (h : Reaches step Undisturbed opened store) :
    store.Integrity := by
  have hsound : store.Sound := h.invariant Sound sound_opened fun _ _ hbefore hevent => hbefore.step hevent
  obtain ⟨bytes, hbytes⟩ := hsound.encoded
  exact {
    parented := hsound.consistent.parented
    organizationSlugs := hsound.consistent.organizationSlugs
    projectSlugs := hsound.consistent.projectSlugs
    owners := fun _ _ _ _ _ hbefore hafter => execute_owner hsound.stored hbefore hafter
    errors := fun _ _ _ herror hdomain => execute_error herror hdomain
    roundTrip := ⟨bytes, hbytes, hsound.decode hbytes⟩
    restart := hsound.restart }

/-! ### An organization with the slug of the default one -/

def conflicting : Organization :=
  ⟨⟨"a", by decide⟩, ⟨"A", validateName_A⟩, ⟨"default", Slug.valid_default _⟩, .active, .epoch⟩

theorem conflicting_representable : conflicting.Representable := ⟨by decide, by decide⟩

def createConflicting : Request := .createOrganization conflicting conflicting_representable

theorem plan_createConflicting : plan .default createConflicting =
    .ok (some (.insertOrganization conflicting)) := rfl

theorem plan_bootstrap : ∃ change,
    plan (ControlPlaneState.default.withOrganization conflicting) (.bootstrapDefault 0) =
      .ok (some change) := ⟨_, rfl⟩

theorem step_written (store : ControlPlaneStore) {request : Request} {change : ControlPlaneChange}
    (hplan : plan store.state request = .ok (some change))
    (horganizations : (store.state.apply change).organizations.size < 256 ^ 4)
    (hprojects : (store.state.apply change).projects.size < 256 ^ 4) :
    ∃ bytes, encodeState (store.state.apply change) = .ok bytes ∧
      store.step (request, .written) = ⟨some bytes, store.state.apply change⟩ := by
  obtain ⟨bytes, hbytes⟩ := encodeState_exists horganizations hprojects
  refine ⟨bytes, hbytes, ?_⟩
  rw [ControlPlaneStore.step, execute, hplan]
  simp only [persist, hbytes, reduceCtorEq, if_false]

/-- The bootstrap does not look for other organizations with its slug. -/
theorem not_unique_of_bootstrap {state : ControlPlaneState} {createdAtUnix : ℕ}
    {change : ControlPlaneChange} (h : state.bootstrapDefault createdAtUnix = .ok (some change))
    {key : String} {other : Organization} (hother : state.organizations[key]? = some other)
    (hslug : other.slug.asStr = "default") :
    ¬(state.apply change).OrganizationSlugsUnique := by
  obtain ⟨hnone, -, organization, project, rfl, hid, hnewSlug, -⟩ := bootstrapDefault_ok h
  have hkey : ¬compare organization.id.asStr key = .eq := by
    intro heq
    obtain rfl := compare_eq_iff_eq.mp heq
    rw [hid] at hother
    cases hnone.symm.trans hother
  have hkept : (state.organizations.insert organization.id.asStr organization)[key]? =
      some other := by
    rw [Std.ExtTreeMap.getElem?_insert, if_neg hkey]
    exact hother
  intro hunique
  have hsame := hunique _ _ _ _ hkept Std.ExtTreeMap.getElem?_insert_self
    (hslug.trans hnewSlug.symm)
  exact hkey (compare_eq_iff_eq.mpr hsame.symm)

theorem openStore_inconsistent {state : ControlPlaneState} (hstored : state.Stored) {bytes : Bytes}
    (hbytes : encodeState state = .ok bytes) (h : ¬state.Consistent)
    (reopened : ControlPlaneStore) : openStore (some bytes) ≠ .ok reopened := by
  rw [openStore, decodeState_encodeState hstored hbytes]
  cases hresult : state.validateLoadedState with
  | ok _ => exact absurd ((validateLoadedState_ok_iff hstored).mp hresult) h
  | error error => nofun

/-- The bootstrap then makes a state with two organizations of one slug, and its
file cannot be loaded. -/
theorem not_integrity_bootstrap : ∃ store,
    Reaches step (fun _ event => event.2 = .written) opened store ∧
      ¬store.state.OrganizationSlugsUnique ∧ ∀ reopened, openStore store.file ≠ .ok reopened := by
  obtain ⟨first, -, hfirst⟩ := step_written opened plan_createConflicting
    (Std.ExtTreeMap.size_insert_le.trans_lt (by decide)) (by decide)
  obtain ⟨change, hplan⟩ := plan_bootstrap
  have hbootstrap : (ControlPlaneState.default.withOrganization conflicting).bootstrapDefault 0 =
      .ok (some change) := hplan
  have hother : (ControlPlaneState.default.withOrganization conflicting).organizations["a"]? =
      some conflicting := Std.ExtTreeMap.getElem?_insert_self
  have htwice := not_unique_of_bootstrap hbootstrap hother rfl
  obtain ⟨-, -, organization, project, rfl, -, -, -, -, hbuilt⟩ := bootstrapDefault_ok hbootstrap
  obtain ⟨hbuiltOrganization, hbuiltProject⟩ := hbuilt (by decide)
  have hstored := ((stored_default.withOrganization conflicting_representable).withOrganization
    hbuiltOrganization).withProject hbuiltProject
  obtain ⟨second, hsecond, hstep⟩ := step_written
    ⟨some first, ControlPlaneState.default.withOrganization conflicting⟩ hplan
    (Std.ExtTreeMap.size_insert_le.trans_lt
      ((Nat.add_le_add_right Std.ExtTreeMap.size_insert_le 1).trans_lt (by decide)))
    (Std.ExtTreeMap.size_insert_le.trans_lt
      (show (∅ : Std.ExtTreeMap String Project compare).size + 1 < 256 ^ 4 by decide))
  have hopened : Reaches step (fun _ event => event.2 = .written) opened opened :=
    Reaches.refl opened
  have hreaches := (hopened.tail (createConflicting, .written) rfl).tail
    (.bootstrapDefault 0, .written) rfl
  have hfirst : opened.step (createConflicting, .written) =
      ⟨some first, ControlPlaneState.default.withOrganization conflicting⟩ := hfirst
  rw [hfirst, hstep] at hreaches
  exact ⟨_, hreaches, htwice, openStore_inconsistent hstored hsecond fun h =>
    htwice h.organizationSlugs⟩

theorem integrity_of_undisturbed_bootstrap :
    (opened.step (.bootstrapDefault 0, .written)).Integrity := by
  refine integrity_of_undisturbed ((Reaches.refl opened).tail _ ⟨fun _ _ _ _ key other h => ?_, nofun⟩)
  rw [opened, ControlPlaneState.default, Std.ExtTreeMap.getElem?_empty] at h
  cases h

end ControlPlaneStore

end Ketebe
