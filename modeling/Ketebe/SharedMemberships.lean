import Ketebe.Lib.CachedFile
import Ketebe.Lib.Runs
import Ketebe.Ownership

/-!
Membership services that are shared by concurrent calls. A call checks its actor and
releases the lock, and takes it again to change the members. A resource with members
has an owner, and only actors whose role suffices change it, unless the role is taken
from an actor between the two.
-/
namespace Ketebe

open Lib.ByteCodec Lib.CachedFile Lib.Durable Lib.Durable.Program Lib.Runs

/-! ### Calls -/

/-- A call of the service; deleting a resource purges its members. -/
inductive MembershipCall (Id Role : Type) where
  | bootstrapOwner (id : Id) (subject : String)
  | createMembership (actor : Principal) (id : Id) (subject : String) (role : Role)
  | updateRole (actor : Principal) (id : Id) (subject : String) (role : Role)
  | removeMembership (actor : Principal) (id : Id) (subject : String)
  | purge (id : Id)

/-- Who must have a role that suffices, and where. -/
def MembershipCall.actor {Id Role : Type} : MembershipCall Id Role → Option (Principal × Id)
  | .createMembership actor id _ _ | .updateRole actor id _ _ | .removeMembership actor id _ =>
      some (actor, id)
  | .bootstrapOwner .. | .purge .. => none

/-- What tells the two services apart. -/
structure MembershipRules (Id Role : Type) [MembershipRole Role] where
  asStr : Id → String
  mayChange : Role → Bool
  ensureBootstrap : ControlPlaneState → Id → String → Except MembershipError Unit
  authorize : ControlPlane.MembershipService Role → Principal → Id → Except MembershipError Unit
  role_of_authorize : ∀ {service : ControlPlane.MembershipService Role} {principal : Principal}
    {id : Id}, authorize service principal id = .ok () →
      ∃ role, service.roleOf (asStr id) principal = .ok role ∧ mayChange role

open ControlPlane in
def organizationMembershipRules : MembershipRules OrganizationId OrganizationRole where
  asStr := OrganizationId.asStr
  mayChange role := role.allows .membershipWrite
  ensureBootstrap controlPlane id subject :=
    if (controlPlane.organization id).isNone then .error .resourceNotFound
    else if trim subject = "" then .error .invalidSubject else .ok ()
  authorize service actor id :=
    OrganizationMembershipService.authorize service actor id .membershipWrite
  role_of_authorize := by
    intro service principal id h
    unfold OrganizationMembershipService.authorize at h
    split at h
    · cases h
    · obtain ⟨role, hrole, h⟩ := except_bind_ok.mp h
      split at h
      · rename_i hallows
        exact ⟨role, hrole, hallows⟩
      · cases h

open ControlPlane in
def projectMembershipRules : MembershipRules ProjectId ProjectRole where
  asStr := ProjectId.asStr
  mayChange role := role.allows .projectAdmin
  ensureBootstrap controlPlane id _ :=
    if (controlPlane.project id).isNone then .error .resourceNotFound else .ok ()
  authorize service actor id := ProjectMembershipService.authorize service actor id .projectAdmin
  role_of_authorize := by
    intro service principal id h
    unfold ProjectMembershipService.authorize at h
    split at h
    · cases h
    · split at h
      · cases h
      · obtain ⟨role, hrole, h⟩ := except_bind_ok.mp h
        split at h
        · rename_i hallows
          exact ⟨role, hrole, hallows⟩
        · cases h

namespace MembershipFile

variable {Role : Type} {file : MembershipFile Role}

def Populated (file : MembershipFile Role) (resourceId : String) : Prop :=
  ∃ (subject : String) (membership : Membership Role),
    (file.members resourceId)[subject]? = some membership

theorem populated_insert {membership : Membership Role} {id : String}
    (h : (file.apply (.insert membership)).Populated id) (hid : membership.resourceId ≠ id) :
    file.Populated id := by
  obtain ⟨subject, member, hmember⟩ := h
  rw [members_insert, if_neg (fun hsame => hid hsame.1)] at hmember
  exact ⟨subject, member, hmember⟩

end MembershipFile

namespace MembershipRules

variable {Id Role : Type} [MembershipRole Role] (rules : MembershipRules Id Role)

/-- What a call checks before it takes the lock to change the members. -/
def check (service : ControlPlane.MembershipService Role) :
    MembershipCall Id Role → Except MembershipError Unit
  | .bootstrapOwner id subject => rules.ensureBootstrap service.controlPlane id subject
  | .createMembership actor id _ _ | .updateRole actor id _ _ | .removeMembership actor id _ =>
      rules.authorize service actor id
  | .purge _ => .ok ()

/-- What a call that has the lock does with the members, if it does anything. -/
def plan (file : MembershipFile Role) :
    MembershipCall Id Role → Except MembershipError (Option (MembershipChange Role))
  | .bootstrapOwner id subject => do
      let membership ← file.bootstrapOwner (rules.asStr id) subject
      pure (some (.insert membership))
  | .createMembership _ id subject role => do
      let membership ← file.createMembership (rules.asStr id) subject role
      pure (some (.insert membership))
  | .updateRole _ id subject role => do
      let updated ← file.updateRole (rules.asStr id) subject role
      pure (some (.insert updated))
  | .removeMembership _ id subject => do
      let _ ← file.removeMembership (rules.asStr id) subject
      pure (some (.remove (rules.asStr id) subject))
  | .purge id =>
      .ok (if rules.asStr id ∈ file.memberships then some (.purge (rules.asStr id)) else none)

/-- The section of a call under its second lock. -/
def change (call : MembershipCall Id Role) :
    Program (Cached (MembershipFile Role)) MembershipError Unit := do
  let state ← get
  match ← Program.lift (rules.plan state.memory call) with
  | none => pure ()
  | some change => Cached.replace .io (state.memory.apply change)

end MembershipRules

/-! ### Concurrent calls -/

/-- The service, and the calls that have passed their checks. -/
structure SharedMemberships (Id Role : Type) where
  store : Cached (MembershipFile Role)
  admitted : List (MembershipCall Id Role)

/-- One section under the lock. The checks see the control plane as it was read. -/
inductive MembershipEvent (Id Role : Type) where
  | check (controlPlane : ControlPlaneState) (call : MembershipCall Id Role)
  | change (index : ℕ) (faults : List Fault)
  | restart

namespace SharedMemberships

variable {Id Role : Type}

def opened (disk : Option (MembershipFile Role)) : SharedMemberships Id Role :=
  ⟨Cached.reopen .default disk, []⟩

/-- A call is over after its second section; a process that crashes starts again. -/
def finish (state : SharedMemberships Id Role) (index : ℕ) :
    Ending MembershipError Unit × World (Cached (MembershipFile Role)) →
      Option (Except MembershipError Unit) × SharedMemberships Id Role
  | (.ok (), world) => (some (.ok ()), ⟨world.state, state.admitted.eraseIdx index⟩)
  | (.error error, world) => (some (.error error), ⟨world.state, state.admitted.eraseIdx index⟩)
  | (.crashed, world) => (none, opened world.state.disk)

variable [MembershipRole Role] (rules : MembershipRules Id Role)

/-- The service after an event, and what a call that ends with it returns. -/
def serve (state : SharedMemberships Id Role) :
    MembershipEvent Id Role → Option (Except MembershipError Unit) × SharedMemberships Id Role
  | .check controlPlane call =>
      match rules.check ⟨controlPlane, state.store.memory⟩ call with
      | .ok () => (none, { state with admitted := state.admitted ++ [call] })
      | .error error => (some (.error error), state)
  | .change index faults =>
      match state.admitted[index]? with
      | none => (none, state)
      | some call => state.finish index ((rules.change call).run state.store faults)
  | .restart => (none, opened state.store.disk)

def step (state : SharedMemberships Id Role) (event : MembershipEvent Id Role) :
    SharedMemberships Id Role := (state.serve rules event).2

/-- The actor of the call has a role that suffices. -/
def Authorized (file : MembershipFile Role) (call : MembershipCall Id Role) : Prop :=
  ∀ actor id, call.actor = some (actor, id) → ∃ membership,
    (file.members (rules.asStr id))[actor.subject]? = some membership ∧
      rules.mayChange membership.role

/-- An applied change takes no role that a call has been admitted with. -/
def Spares (state : SharedMemberships Id Role) : MembershipEvent Id Role → Prop
  | .change index faults => faults.headD .none = .none → ∀ call change,
      state.admitted[index]? = some call →
        rules.plan state.store.memory call = .ok (some change) →
          ∀ other ∈ state.admitted.eraseIdx index, Authorized rules state.store.memory other →
            Authorized rules (state.store.memory.apply change) other
  | .check .. | .restart => True

/-! ### Owners -/

section Owners

variable {rules} {file : MembershipFile Role} {call : MembershipCall Id Role}
  {change : MembershipChange Role} {id : String}

/-- A change that is planned by an authorized call leaves no members without an owner. -/
theorem owned_apply (hplan : rules.plan file call = .ok (some change))
    (hcall : Authorized rules file call) (h : file.Populated id → file.Owned id)
    (hafter : (file.apply change).Populated id) : (file.apply change).Owned id := by
  cases call with
  | bootstrapOwner resource subject =>
    obtain ⟨membership, hplanned, hchange⟩ := except_bind_ok.mp hplan
    cases hchange
    have hmembership := MembershipFile.bootstrapOwner_ok hplanned
    apply MembershipFile.owned_insert_owner (by rw [hmembership])
    by_cases hid : membership.resourceId = id
    · exact .inl hid
    · exact .inr (h (MembershipFile.populated_insert hafter hid))
  | createMembership actor resource subject role =>
    obtain ⟨membership, hplanned, hchange⟩ := except_bind_ok.mp hplan
    cases hchange
    obtain ⟨acting, hacting, -⟩ := hcall actor resource rfl
    apply MembershipFile.owned_createMembership hplanned
    apply h
    by_cases hid : membership.resourceId = id
    · rw [MembershipFile.createMembership_ok hplanned] at hid
      rw [← hid]
      exact ⟨actor.subject, acting, hacting⟩
    · exact MembershipFile.populated_insert hafter hid
  | updateRole actor resource subject role =>
    obtain ⟨membership, hplanned, hchange⟩ := except_bind_ok.mp hplan
    cases hchange
    obtain ⟨acting, hacting, -⟩ := hcall actor resource rfl
    apply MembershipFile.owned_updateRole hplanned
    apply h
    by_cases hid : membership.resourceId = id
    · rw [MembershipFile.updateRole_ok hplanned] at hid
      rw [← hid]
      exact ⟨actor.subject, acting, hacting⟩
    · exact MembershipFile.populated_insert hafter hid
  | removeMembership actor resource subject =>
    obtain ⟨membership, hplanned, hchange⟩ := except_bind_ok.mp hplan
    cases hchange
    obtain ⟨name, member, hmember⟩ := hafter
    apply MembershipFile.owned_removeMembership hplanned
    apply h
    rw [MembershipFile.members_remove] at hmember
    split at hmember
    · cases hmember
    · exact ⟨name, member, hmember⟩
  | purge resource =>
    obtain ⟨name, member, hmember⟩ := hafter
    have hchange : change = .purge (rules.asStr resource) := by
      have hsome : (if rules.asStr resource ∈ file.memberships then
          some (MembershipChange.purge (rules.asStr resource)) else none) = some change :=
        Except.ok.inj hplan
      split at hsome
      · exact (Option.some.inj hsome).symm
      · cases hsome
    subst hchange
    rw [MembershipFile.members_purge] at hmember
    split at hmember
    · cases hmember
    · rename_i hid
      exact MembershipFile.owned_purge hid (h ⟨name, member, hmember⟩)

end Owners

/-! ### Runs -/

/-- What holds between the events of a run that started from a file. -/
structure Governed (disk : Option (MembershipFile Role)) (state : SharedMemberships Id Role) :
    Prop where
  cached : state.store = Cached.reopen .default state.store.disk
  authorized : ∀ call ∈ state.admitted, Authorized rules state.store.memory call
  owners : ∀ id, ((disk.getD .default).Populated id → (disk.getD .default).Owned id) →
    state.store.memory.Populated id → state.store.memory.Owned id

section Runs

variable {rules} {disk : Option (MembershipFile Role)} {state : SharedMemberships Id Role}
  {call : MembershipCall Id Role} {change : MembershipChange Role} {index : ℕ}

theorem authorized_of_check {controlPlane : ControlPlaneState} {file : MembershipFile Role}
    (h : rules.check ⟨controlPlane, file⟩ call = .ok ()) : Authorized rules file call := by
  have hactor {actor : Principal} {id : Id}
      (h : rules.authorize ⟨controlPlane, file⟩ actor id = .ok ()) : ∃ membership,
        (file.members (rules.asStr id))[actor.subject]? = some membership ∧
          rules.mayChange membership.role := by
    obtain ⟨role, hrole, hallows⟩ := rules.role_of_authorize h
    unfold ControlPlane.MembershipService.roleOf at hrole
    split at hrole
    · cases hrole
    · rename_i membership hmember
      cases hrole
      exact ⟨membership, hmember, hallows⟩
  intro actor id hcall
  cases call with
  | bootstrapOwner | purge => cases hcall
  | createMembership | updateRole | removeMembership =>
    cases hcall
    exact hactor h

theorem change_run (store : Cached (MembershipFile Role)) (faults : List Fault) :
    (rules.change call).run store faults = match rules.plan store.memory call with
      | .error error => (.error error, ⟨store, faults⟩)
      | .ok none => (.ok (), ⟨store, faults⟩)
      | .ok (some change) => (Cached.replace .io (store.memory.apply change)).run store faults := by
  show continueWith _ ((Program.lift (rules.plan store.memory call)).run store faults) = _
  rcases rules.plan store.memory call with error | _ | change <;> rfl

theorem governed_opened (disk : Option (MembershipFile Role)) :
    Governed rules disk (opened disk) :=
  ⟨rfl, fun _ hcall => (nomatch hcall), fun _ h => h⟩

theorem Governed.reopened (h : Governed rules disk state) :
    Governed rules disk (opened state.store.disk) := by
  have hmemory : state.store.memory = state.store.disk.getD .default :=
    congrArg Cached.memory h.cached
  refine ⟨rfl, fun _ hcall => (nomatch hcall), fun id hstart => ?_⟩
  show (state.store.disk.getD .default).Populated id → (state.store.disk.getD .default).Owned id
  rw [← hmemory]
  exact h.owners id hstart

theorem Governed.applied (h : Governed rules disk state) (hcall : state.admitted[index]? = some call)
    (hplan : rules.plan state.store.memory call = .ok (some change))
    {admitted : List (MembershipCall Id Role)}
    (hothers : ∀ other ∈ admitted, Authorized rules (state.store.memory.apply change) other) :
    Governed rules disk ⟨⟨state.store.memory.apply change,
      some (state.store.memory.apply change)⟩, admitted⟩ := by
  have hauthorized := h.authorized call (List.mem_of_getElem? hcall)
  exact ⟨rfl, hothers, fun id hstart => owned_apply hplan hauthorized (h.owners id hstart)⟩

/-- What one event keeps. -/
theorem Governed.step (h : Governed rules disk state) {event : MembershipEvent Id Role}
    (hspares : Spares rules state event) : Governed rules disk (state.step rules event) := by
  cases event with
  | check controlPlane call =>
    unfold SharedMemberships.step serve
    dsimp only
    split
    · rename_i hcheck
      refine ⟨h.cached, fun other hother => ?_, h.owners⟩
      rcases List.mem_append.mp hother with hother | hother
      · exact h.authorized other hother
      · rw [List.mem_singleton.mp hother]
        exact authorized_of_check hcheck
    · exact h
  | restart => exact h.reopened
  | change index faults =>
    unfold SharedMemberships.step serve
    dsimp only
    split
    · exact h
    · rename_i call hcall
      -- A call that changes nothing leaves the list; the others are as authorized as before.
      have hsame : Governed rules disk ⟨state.store, state.admitted.eraseIdx index⟩ :=
        ⟨h.cached, fun other hother => h.authorized other (List.mem_of_mem_eraseIdx hother),
          h.owners⟩
      rw [change_run]
      cases hplan : rules.plan state.store.memory call with
      | error error => exact hsame
      | ok planned =>
        cases planned with
        | none => exact hsame
        | some change =>
          have happlied (hfault : faults.headD .none = .none) : Governed rules disk
              ⟨⟨state.store.memory.apply change, some (state.store.memory.apply change)⟩,
                state.admitted.eraseIdx index⟩ :=
            h.applied hcall hplan fun other hother =>
              hspares hfault call change hcall hplan other hother
                (h.authorized other (List.mem_of_mem_eraseIdx hother))
          have hcrashed : Governed rules disk (opened (some (state.store.memory.apply change))) :=
            h.applied hcall hplan fun _ hother => (nomatch hother)
          dsimp only
          rw [Cached.replace_run]
          cases hfault : faults.headD .none with
          | none => exact happlied hfault
          | failsBefore | failsAfter => exact hsame
          | crashesBefore => exact h.reopened
          | crashesAfter => exact hcrashed

end Runs

/-- An event that fails a call changes nothing, and only a call whose actor has a role
that suffices succeeds or changes the members. -/
structure Proper (state : SharedMemberships Id Role) (event : MembershipEvent Id Role) :
    Prop where
  refused : ∀ error, (state.serve rules event).1 = some (.error error) →
    (state.serve rules event).2.store = state.store
  authorized : (state.serve rules event).1 = some (.ok ()) ∨
      (state.serve rules event).2.store ≠ state.store →
    ∃ index faults call, event = .change index faults ∧ state.admitted[index]? = some call ∧
      Authorized rules state.store.memory call

/-- Members have an owner if they had one at the start or came later, and each event is
proper. -/
def Orderly (disk : Option (MembershipFile Role)) (state : SharedMemberships Id Role) : Prop :=
  (∀ id, ((disk.getD .default).Populated id → (disk.getD .default).Owned id) →
    state.store.memory.Populated id → state.store.memory.Owned id) ∧
  ∀ event, Proper rules state event

section Orderly

variable {rules} {disk : Option (MembershipFile Role)} {state : SharedMemberships Id Role}

theorem Governed.proper (h : Governed rules disk state) (event : MembershipEvent Id Role) :
    Proper rules state event := by
  cases event with
  | check controlPlane call =>
    cases hcheck : rules.check ⟨controlPlane, state.store.memory⟩ call with
    | ok _ => constructor <;> simp [serve, hcheck]
    | error error => constructor <;> simp [serve, hcheck]
  | restart =>
    have hsame : (opened state.store.disk : SharedMemberships Id Role).store = state.store :=
      h.cached.symm
    constructor <;> simp [serve, hsame]
  | change index faults =>
    cases hcall : state.admitted[index]? with
    | none => constructor <;> simp [serve, hcall]
    | some call =>
      refine ⟨fun error hanswer => ?_, fun _ =>
        ⟨index, faults, call, rfl, hcall, h.authorized call (List.mem_of_getElem? hcall)⟩⟩
      simp only [serve, hcall, change_run] at hanswer ⊢
      rcases hplan : rules.plan state.store.memory call with failure | _ | change
      · rfl
      · rfl
      · rw [hplan] at hanswer
        dsimp only at hanswer ⊢
        rw [Cached.replace_run] at hanswer ⊢
        cases hfault : faults.headD .none with
        | failsBefore | failsAfter => rfl
        | none | crashesBefore | crashesAfter =>
          rw [hfault] at hanswer
          cases hanswer

theorem orderly (hrun : Reaches (step rules) (Spares rules) (opened disk) state) :
    Orderly rules disk state := by
  have hgoverned : Governed rules disk state :=
    hrun.invariant (Governed rules disk) (governed_opened disk) fun _ _ hstate hspares =>
      hstate.step hspares
  exact ⟨hgoverned.owners, hgoverned.proper⟩

end Orderly

/-- Both services are orderly while no role is taken between a check and its change. -/
theorem memberships_orderly (organizations : Option (MembershipFile OrganizationRole))
    (organizationState : SharedMemberships OrganizationId OrganizationRole)
    (projects : Option (MembershipFile ProjectRole))
    (projectState : SharedMemberships ProjectId ProjectRole) :
    (Reaches (step organizationMembershipRules) (Spares organizationMembershipRules)
        (opened organizations) organizationState →
      Orderly organizationMembershipRules organizations organizationState) ∧
    (Reaches (step projectMembershipRules) (Spares projectMembershipRules) (opened projects)
        projectState →
      Orderly projectMembershipRules projects projectState) :=
  ⟨orderly, orderly⟩

/-! ### A role that is taken in between -/

def admin : Principal := ⟨"admin", .credential, none, none⟩

def owner : Principal := ⟨"owner", .credential, none, none⟩

/-- An organization with an owner and an admin. -/
def staffed : MembershipFile OrganizationRole :=
  (MembershipFile.default.apply (.insert ⟨"org-a", "owner", .owner⟩)).apply
    (.insert ⟨"org-a", "admin", .admin⟩)

def unstaffed : MembershipFile OrganizationRole := staffed.apply (.remove "org-a" "admin")

def staffedPlane : ControlPlaneState :=
  ControlPlaneState.default.withOrganization ControlPlane.organizationA

def addGuest : MembershipCall OrganizationId OrganizationRole :=
  .createMembership admin ControlPlane.organizationA.id "guest" .admin

def removeAdmin : MembershipCall OrganizationId OrganizationRole :=
  .removeMembership owner ControlPlane.organizationA.id "admin"

/-- The owner removes the admin, whose call has passed its check. -/
def removal : List (MembershipEvent OrganizationId OrganizationRole) :=
  [.check staffedPlane addGuest, .check staffedPlane removeAdmin, .change 1 []]

theorem authorize_staffed {actor : Principal} {membership : Membership OrganizationRole}
    (hmember : (staffed.members "org-a")[actor.subject]? = some membership)
    (hallows : membership.role.allows .membershipWrite) :
    organizationMembershipRules.authorize ⟨staffedPlane, staffed⟩ actor
      ControlPlane.organizationA.id = .ok () := by
  have horganization : staffedPlane.organization ControlPlane.organizationA.id =
      some ControlPlane.organizationA := Std.ExtTreeMap.getElem?_insert_self
  have hrole : ControlPlane.MembershipService.roleOf ⟨staffedPlane, staffed⟩ "org-a" actor =
      .ok membership.role := by
    unfold ControlPlane.MembershipService.roleOf
    rw [hmember]
  show ControlPlane.OrganizationMembershipService.authorize ⟨staffedPlane, staffed⟩ actor
    ControlPlane.organizationA.id .membershipWrite = _
  unfold ControlPlane.OrganizationMembershipService.authorize
  rw [if_neg (by rw [horganization]; exact Bool.false_ne_true)]
  show (ControlPlane.MembershipService.roleOf _ "org-a" actor >>= _) = _
  rw [hrole, except_ok_bind, if_pos hallows]

theorem members_staffed (subject : String) : (staffed.members "org-a")[subject]? =
    if "admin" = subject then some ⟨"org-a", "admin", .admin⟩
    else if "owner" = subject then some ⟨"org-a", "owner", .owner⟩ else none := by
  have hempty : ((MembershipFile.default : MembershipFile OrganizationRole).members
      "org-a")[subject]? = none := rfl
  rw [staffed, MembershipFile.members_insert, MembershipFile.members_insert, hempty]
  simp only [true_and]

theorem plan_removeAdmin : organizationMembershipRules.plan staffed removeAdmin =
    .ok (some (.remove "org-a" "admin")) := by
  have hremoved : staffed.removeMembership "org-a" "admin" = .ok ⟨"org-a", "admin", .admin⟩ := by
    unfold MembershipFile.removeMembership
    rw [members_staffed, if_pos rfl]
    rfl
  show (staffed.removeMembership "org-a" "admin" >>= _) = _
  rw [hremoved]
  rfl

theorem plan_addGuest : organizationMembershipRules.plan unstaffed addGuest =
    .ok (some (.insert ⟨"org-a", "guest", .admin⟩)) := by
  have hnew : Membership.new "org-a" "guest" OrganizationRole.admin =
      .ok ⟨"org-a", "guest", .admin⟩ := if_neg (by decide)
  have habsent : "guest" ∉ unstaffed.members "org-a" := by
    rw [Std.ExtTreeMap.mem_iff_isSome_getElem?, unstaffed, MembershipFile.members_remove,
      if_neg (by decide), members_staffed, if_neg (by decide), if_neg (by decide)]
    exact Bool.false_ne_true
  have hcreated : unstaffed.createMembership "org-a" "guest" .admin =
      .ok ⟨"org-a", "guest", .admin⟩ := by
    unfold MembershipFile.createMembership
    rw [hnew, except_ok_bind, if_neg habsent]
    rfl
  show (unstaffed.createMembership "org-a" "guest" .admin >>= _) = _
  rw [hcreated]
  rfl

theorem foldl_removal : removal.foldl (step organizationMembershipRules) (opened (some staffed)) =
    ⟨⟨unstaffed, some unstaffed⟩, [addGuest]⟩ := by
  have hguest : organizationMembershipRules.check ⟨staffedPlane, staffed⟩ addGuest = .ok () :=
    authorize_staffed ((members_staffed "admin").trans (if_pos rfl)) rfl
  have hremove : organizationMembershipRules.check ⟨staffedPlane, staffed⟩ removeAdmin = .ok () :=
    authorize_staffed ((members_staffed "owner").trans rfl) rfl
  have hfirst : step organizationMembershipRules (opened (some staffed))
      (.check staffedPlane addGuest) = ⟨⟨staffed, some staffed⟩, [addGuest]⟩ := by
    simp only [step, serve, opened, Cached.reopen, Option.getD_some, hguest, List.nil_append]
  have hsecond : step organizationMembershipRules ⟨⟨staffed, some staffed⟩, [addGuest]⟩
      (.check staffedPlane removeAdmin) = ⟨⟨staffed, some staffed⟩, [addGuest, removeAdmin]⟩ := by
    simp only [step, serve, hremove, List.cons_append, List.nil_append]
  have hthird : step organizationMembershipRules
      ⟨⟨staffed, some staffed⟩, [addGuest, removeAdmin]⟩ (.change 1 []) =
        ⟨⟨unstaffed, some unstaffed⟩, [addGuest]⟩ := by
    show (finish _ 1 ((organizationMembershipRules.change removeAdmin).run
      ⟨staffed, some staffed⟩ [])).2 = _
    rw [change_run, plan_removeAdmin]
    rfl
  rw [removal, List.foldl_cons, hfirst, List.foldl_cons, hsecond, List.foldl_cons, hthird,
    List.foldl_nil]

theorem not_orderly : ¬∀ disk state,
    Reaches (step organizationMembershipRules) (fun _ _ => True) (opened disk) state →
      Orderly organizationMembershipRules disk state := by
  intro h
  have hrun : Reaches (step organizationMembershipRules) (fun _ _ => True)
      (opened (some staffed)) ⟨⟨unstaffed, some unstaffed⟩, [addGuest]⟩ := by
    rw [← foldl_removal]
    exact Reaches.foldl removal _
  have hanswer : (serve organizationMembershipRules ⟨⟨unstaffed, some unstaffed⟩, [addGuest]⟩
      (.change 0 [])).1 = some (.ok ()) := by
    show (finish _ 0 ((organizationMembershipRules.change addGuest).run
      ⟨unstaffed, some unstaffed⟩ [])).1 = _
    rw [change_run, plan_addGuest]
    rfl
  obtain ⟨index, faults, call, hevent, hcall, hauthorized⟩ :=
    ((h _ _ hrun).2 (.change 0 [])).authorized (.inl hanswer)
  cases hevent
  cases hcall
  obtain ⟨membership, hmember, -⟩ := hauthorized admin ControlPlane.organizationA.id rfl
  have hremoved : (unstaffed.members "org-a")["admin"]? = none := by
    rw [unstaffed, MembershipFile.members_remove, if_pos ⟨rfl, rfl⟩]
  cases hremoved.symm.trans hmember

end SharedMemberships

end Ketebe
