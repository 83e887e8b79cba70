import Ketebe.CollectionFiles
import Ketebe.Lib.PrefixCode
import Ketebe.SearchProfiles
import Mathlib.Data.List.AList
import Mathlib.Data.List.MinMax
import Std.Data.String.ToNat

/-!
The store of the search profiles of one collection. Calls interleave: each access to the
directory is one step. What decoding a file returns stands for the file itself.
-/
namespace Ketebe.Query

open Lib.ByteCodec Lib.PrefixCode

/-! ### Selectors -/

@[ext] structure ProfileVersion where
  name : String
  version : ℕ
  deriving DecidableEq

def SearchProfile.pinned (profile : SearchProfile) : ProfileVersion :=
  ⟨profile.name, profile.version⟩

def parseVersion (text : String) : Except SearchProfileError ℕ :=
  match parseU64 text.toList with
  | none => .error (.invalid "profile version must be an unsigned integer")
  | some version =>
      if version = 0 then .error (.invalid "profile version must be greater than zero")
      else .ok version.toNat

def parseSelector (selector : String) : Except SearchProfileError (String × Option ℕ) := do
  let parts := (selector.toList.splitOn '@').map String.ofList
  let name := parts.headD ""
  validateName name
  match parts.tail with
  | [] => pure (name, none)
  | [text] => do
    let version ← parseVersion text
    pure (name, some version)
  | _ => throw (.invalid "profile selector contains multiple '@' separators")

theorem validateName_ok {name : String} (h : validateName name = .ok ()) :
    ∀ character ∈ name.toList, character.isAlphanum ∨ character = '-' ∨ character = '_' := by
  unfold validateName at h
  split at h
  · rename_i hname
    intro character hmem
    have hcharacter := List.all_eq_true.mp hname.2.2 character hmem
    simpa only [Bool.or_eq_true, beq_iff_eq, or_assoc] using hcharacter
  · cases h

theorem at_notMem {name : String} (h : validateName name = .ok ()) : '@' ∉ name.toList := by
  intro hmem
  obtain halphanum | hdash | hunderscore := validateName_ok h _ hmem
  · cases halphanum
  · cases hdash
  · cases hunderscore

theorem name_of_validate {profile : SearchProfile} (h : profile.validate = .ok ()) :
    validateName profile.name = .ok () :=
  (except_bind_ok.mp h).choose_spec.1

/-- The pinned ids of valid names are those of one version only. -/
theorem pinned_of_pinnedId {first second : SearchProfile}
    (hfirst : validateName first.name = .ok ()) (hsecond : validateName second.name = .ok ())
    (h : first.pinnedId = second.pinnedId) : first.pinned = second.pinned := by
  have hlist (profile : SearchProfile) : profile.pinnedId.toList =
      profile.name.toList ++ '@' :: (Nat.repr profile.version).toList := by
    change (profile.name ++ "@" ++ Nat.repr profile.version).toList = _
    simp
  have hsame := congrArg String.toList h
  rw [hlist, hlist] at hsame
  obtain ⟨hname, hversion⟩ := append_cons_inj (at_notMem hfirst) (at_notMem hsecond) hsame
  exact ProfileVersion.ext (String.toList_inj.mp hname)
    (Nat.repr_injective (String.toList_inj.mp hversion))

/-! ### Files -/

inductive ProfileFile where
  | profile (version : ProfileVersion)
  | temporary (version : ProfileVersion) (pid : ℕ)
  deriving DecidableEq

/-- A temporary file has the name of the profile with one more extension. -/
def ProfileFile.fileName : ProfileFile → String
  | .profile file => s!"{file.name}@{file.version}.json"
  | .temporary file pid => s!"{file.name}@{file.version}.json.tmp.{pid}"

def ProfileFile.versionOf : ProfileFile → ProfileVersion
  | .profile file => file
  | .temporary file _ => file

def ProfileFile.pidOf : ProfileFile → Option ℕ
  | .profile _ => none
  | .temporary _ pid => some pid

theorem dot_notMem_repr (value : ℕ) : '.' ∉ (Nat.repr value).toList := by
  intro hdot
  rw [Nat.toList_repr] at hdot
  cases Nat.isDigit_of_mem_toDigits (by decide) (by decide) hdot

/-- The names of the files tell them apart. -/
theorem fileName_injOn : Set.InjOn ProfileFile.fileName
    {file | validateName file.versionOf.name = .ok ()} := by
  have hlist (file : ProfileFile) : ∃ rest : List Char, file.fileName.toList =
      file.versionOf.name.toList ++ '@' :: ((Nat.repr file.versionOf.version).toList ++
        '.' :: ("json".toList ++ rest)) ∧
      rest = match file with
        | .profile _ => []
        | .temporary _ pid => ".tmp.".toList ++ (Nat.repr pid).toList := by
    cases file with
    | profile version =>
      refine ⟨[], ?_, rfl⟩
      change (version.name ++ "@" ++ Nat.repr version.version ++ ".json").toList = _
      simp [ProfileFile.versionOf]
    | temporary version pid =>
      refine ⟨_, ?_, rfl⟩
      change (version.name ++ "@" ++ Nat.repr version.version ++ ".json.tmp." ++
        Nat.repr pid).toList = _
      simp [ProfileFile.versionOf]
  intro first hfirst second hsecond h
  obtain ⟨rest, hrest, hrest'⟩ := hlist first
  obtain ⟨tail, htail, htail'⟩ := hlist second
  have hsame := congrArg String.toList h
  rw [hrest, htail] at hsame
  obtain ⟨hname, hafter⟩ := append_cons_inj (at_notMem hfirst) (at_notMem hsecond) hsame
  obtain ⟨hversion, hextension⟩ :=
    append_cons_inj (dot_notMem_repr _) (dot_notMem_repr _) hafter
  have hversionOf : first.versionOf = second.versionOf :=
    ProfileVersion.ext (String.toList_inj.mp hname)
      (Nat.repr_injective (String.toList_inj.mp hversion))
  have hlast := List.append_cancel_left hextension
  rw [hrest', htail'] at hlast
  cases first with
  | profile version =>
    cases second with
    | profile other => exact congrArg ProfileFile.profile hversionOf
    | temporary other pid => cases hlast
  | temporary version pid =>
    cases second with
    | profile other => cases hlast
    | temporary other pid' =>
      have hpid := Nat.repr_injective (String.toList_inj.mp (List.append_cancel_left hlast))
      rw [hpid]
      exact congrArg (ProfileFile.temporary · pid') hversionOf

abbrev ProfileContent := Except SearchProfileError SearchProfile

abbrev ProfileDirectory := AList fun _ : ProfileFile => ProfileContent

def ioNotFound : SearchProfileError := .io "No such file or directory (os error 2)"

def ioAlreadyExists : SearchProfileError := .io "File exists (os error 17)"

/-- What an empty file is decoded to. -/
def emptyContent : ProfileContent := .error (.json "EOF while parsing a value at line 1 column 0")

def readProfile (directory : ProfileDirectory) (version : ProfileVersion) :
    Except SearchProfileError SearchProfile :=
  match directory.lookup (.profile version) with
  | none => .error ioNotFound
  | some content => do
    let profile ← content
    profile.validate
    pure profile

/-- The files with the extension `json`. -/
def profileFiles (directory : ProfileDirectory) : List ProfileVersion :=
  directory.keys.filterMap fun
    | .profile version => some version
    | .temporary _ _ => none

def sortProfiles (profiles : List SearchProfile) : List SearchProfile :=
  profiles.mergeSort fun left right =>
    left.name < right.name ∨ left.name = right.name ∧ left.version ≤ right.version

def listProfiles (directory : ProfileDirectory) : Except SearchProfileError (List SearchProfile) := do
  let profiles ← (profileFiles directory).mapM (readProfile directory)
  pure (sortProfiles profiles)

/-- The last of the greatest, as `max_by_key` answers. -/
def highest (name : String) (profiles : List SearchProfile) : Option SearchProfile :=
  (profiles.filter (·.name = name)).reverse.argmax SearchProfile.version

def getProfile (directory : ProfileDirectory) (selector : String) :
    Except SearchProfileError SearchProfile := do
  let (name, version) ← parseSelector selector
  match version with
  | some version =>
      if .profile ⟨name, version⟩ ∈ directory then readProfile directory ⟨name, version⟩
      else throw (.notFound selector)
  | none => do
    let profiles ← listProfiles directory
    match highest name profiles with
    | some profile => pure profile
    | none => throw (.notFound selector)

theorem getProfile_pinned {directory : ProfileDirectory} {selector name : String} {version : ℕ}
    (h : parseSelector selector = .ok (name, some version)) : getProfile directory selector =
      if .profile ⟨name, version⟩ ∈ directory then readProfile directory ⟨name, version⟩
      else .error (.notFound selector) := by
  rw [getProfile, h]
  rfl

theorem getProfile_highest {directory : ProfileDirectory} {selector name : String}
    (h : parseSelector selector = .ok (name, none)) : getProfile directory selector =
      (listProfiles directory).bind fun profiles => match highest name profiles with
        | some profile => .ok profile
        | none => .error (.notFound selector) := by
  rw [getProfile, h]
  rfl

theorem mem_profileFiles {directory : ProfileDirectory} {version : ProfileVersion} :
    version ∈ profileFiles directory ↔ .profile version ∈ directory := by
  rw [profileFiles, List.mem_filterMap, AList.mem_keys]
  constructor
  · rintro ⟨file, hfile, hsome⟩
    cases file with
    | profile other => exact Option.some.inj hsome ▸ hfile
    | temporary other pid => cases hsome
  · exact fun h => ⟨_, h, rfl⟩

theorem highest_eq_some {name : String} {profiles : List SearchProfile} {profile : SearchProfile}
    (h : highest name profiles = some profile) :
    (profile ∈ profiles ∧ profile.name = name) ∧
      ∀ other ∈ profiles, other.name = name → other.version ≤ profile.version := by
  have hmem := List.mem_filter.mp (List.mem_reverse.mp (List.argmax_mem h))
  refine ⟨⟨hmem.1, of_decide_eq_true hmem.2⟩, fun other hother hname => ?_⟩
  exact List.le_of_mem_argmax
    (List.mem_reverse.mpr (List.mem_filter.mpr ⟨hother, decide_eq_true hname⟩)) h

theorem highest_ne_none {name : String} {profiles : List SearchProfile} {profile : SearchProfile}
    (h : profile ∈ profiles) (hname : profile.name = name) : highest name profiles ≠ none := by
  intro hnone
  have hempty := List.reverse_eq_nil_iff.mp (List.argmax_eq_none.mp hnone)
  have hmem : profile ∈ profiles.filter (·.name = name) :=
    List.mem_filter.mpr ⟨h, decide_eq_true hname⟩
  rw [hempty] at hmem
  cases hmem

theorem mem_sortProfiles {profiles : List SearchProfile} {profile : SearchProfile} :
    profile ∈ sortProfiles profiles ↔ profile ∈ profiles :=
  List.mem_mergeSort

/-! ### Calls -/

inductive ProfileCall where
  | create (profile : SearchProfile)
  | get (selector : String)
  | delete (selector : String)

/-- A profile that came under the name of its version, after so many removals of that
version. -/
structure Publication where
  profile : SearchProfile
  incarnation : ℕ
  deriving DecidableEq

def Publication.key (publication : Publication) : ProfileVersion × ℕ :=
  (publication.profile.pinned, publication.incarnation)

/-- What a lookup answered, and what it saw of the directory. -/
inductive ProfileAnswer where
  | pinned (version : ProfileVersion) (incarnation : ℕ) (profile : SearchProfile)
  | highest (name : String) (listed : List ProfileVersion) (profile : SearchProfile)

/-- The accesses of a call to the directory. A deletion is a lookup that goes on. -/
inductive ProfilePhase where
  | checking (profile : SearchProfile)
  | creating (profile : SearchProfile)
  | writing (profile : SearchProfile)
  | publishing (profile : SearchProfile)
  | syncing (publication : Publication)
  | looking (version : ProfileVersion) (selector : String) (deletes : Bool)
  | reading (version : ProfileVersion) (deletes : Bool)
  | listing (name selector : String) (deletes : Bool)
  | collecting (name selector : String) (listed rest : List ProfileVersion)
      (found : List SearchProfile) (deletes : Bool)
  | removing (profile : SearchProfile)
  | returned (result : Except SearchProfileError SearchProfile)

/-- The directory, the id of the process, and what has happened so far. -/
structure ProfileState where
  pid : ℕ
  directory : ProfileDirectory
  removed : List ProfileVersion
  published : List Publication
  acknowledged : List Publication
  answers : List ProfileAnswer

namespace ProfileState

def initial (pid : ℕ) : ProfileState := ⟨pid, ∅, [], [], [], []⟩

variable (state : ProfileState)

def incarnation (version : ProfileVersion) : ℕ := state.removed.count version

def write (file : ProfileFile) (content : ProfileContent) : ProfileState :=
  { state with directory := state.directory.insert file content }

/-- The file of the version may replace another. -/
def publish (profile : SearchProfile) (content : ProfileContent) : ProfileState :=
  { state with
    directory := (state.directory.erase (.temporary profile.pinned state.pid)).insert
      (.profile profile.pinned) content
    published := ⟨profile, state.incarnation profile.pinned⟩ :: state.published }

def acknowledge (publication : Publication) : ProfileState :=
  { state with acknowledged := publication :: state.acknowledged }

def remove (version : ProfileVersion) : ProfileState :=
  { state with
    directory := state.directory.erase (.profile version)
    removed := version :: state.removed }

def answer (answer : ProfileAnswer) : ProfileState :=
  { state with answers := answer :: state.answers }

variable {state}

theorem lookup_write_ne {file other : ProfileFile} {content : ProfileContent} (h : other ≠ file) :
    (state.write file content).directory.lookup other = state.directory.lookup other :=
  AList.lookup_insert_ne h

theorem profile_write {version other : ProfileVersion} {pid : ℕ} {content : ProfileContent} :
    (state.write (.temporary version pid) content).directory.lookup (.profile other) =
      state.directory.lookup (.profile other) :=
  lookup_write_ne ProfileFile.noConfusion

variable {profile : SearchProfile} {content : ProfileContent} {version : ProfileVersion}

theorem profile_publish :
    (state.publish profile content).directory.lookup (.profile profile.pinned) = some content :=
  AList.lookup_insert _

theorem profile_publish_ne (h : version ≠ profile.pinned) :
    (state.publish profile content).directory.lookup (.profile version) =
      state.directory.lookup (.profile version) := by
  have hne : ProfileFile.profile version ≠ .profile profile.pinned :=
    fun hsame => h (ProfileFile.profile.inj hsame)
  have hother : ProfileFile.profile version ≠ .temporary profile.pinned state.pid :=
    ProfileFile.noConfusion
  exact (AList.lookup_insert_ne hne).trans (AList.lookup_erase_ne hother)

theorem temporary_publish_ne {pid : ℕ} (h : version ≠ profile.pinned) :
    (state.publish profile content).directory.lookup (.temporary version pid) =
      state.directory.lookup (.temporary version pid) := by
  have hne : ProfileFile.temporary version pid ≠ .profile profile.pinned :=
    ProfileFile.noConfusion
  have hother : ProfileFile.temporary version pid ≠ .temporary profile.pinned state.pid :=
    fun hsame => h (ProfileFile.temporary.inj hsame).1
  exact (AList.lookup_insert_ne hne).trans (AList.lookup_erase_ne hother)

theorem profile_remove :
    (state.remove version).directory.lookup (.profile version) = none :=
  AList.lookup_erase _ _

theorem lookup_remove_ne {file : ProfileFile} (h : file ≠ .profile version) :
    (state.remove version).directory.lookup file = state.directory.lookup file :=
  AList.lookup_erase_ne h

theorem incarnation_remove :
    (state.remove version).incarnation version = state.incarnation version + 1 :=
  List.count_cons_self

theorem incarnation_remove_ne {other : ProfileVersion} (h : other ≠ version) :
    (state.remove version).incarnation other = state.incarnation other :=
  List.count_cons_of_ne (Ne.symm h)

end ProfileState

namespace ProfilePhase

/-- How a call goes on from the profile that it looked up. -/
def found (profile : SearchProfile) : Bool → ProfilePhase
  | false => returned (.ok profile)
  | true => removing profile

def look (selector : String) (deletes : Bool) : ProfilePhase :=
  match parseSelector selector with
  | .error error => returned (.error error)
  | .ok (name, some version) => looking ⟨name, version⟩ selector deletes
  | .ok (name, none) => listing name selector deletes

def start : ProfileCall → ProfilePhase
  | .create profile => match profile.validate with
    | .error error => returned (.error error)
    | .ok _ => checking profile
  | .get selector => look selector false
  | .delete selector => look selector true

def advance (state : ProfileState) : ProfilePhase → ProfileState × ProfilePhase
  | checking profile =>
      if .profile profile.pinned ∈ state.directory then
        (state, returned (.error (.alreadyExists profile.pinnedId)))
      else (state, creating profile)
  | creating profile =>
      if .temporary profile.pinned state.pid ∈ state.directory then
        (state, returned (.error ioAlreadyExists))
      else (state.write (.temporary profile.pinned state.pid) emptyContent, writing profile)
  | writing profile =>
      (state.write (.temporary profile.pinned state.pid) (.ok profile), publishing profile)
  | publishing profile => match state.directory.lookup (.temporary profile.pinned state.pid) with
    | none => (state, returned (.error ioNotFound))
    | some content => (state.publish profile content,
        syncing ⟨profile, state.incarnation profile.pinned⟩)
  | syncing publication =>
      (state.acknowledge publication, returned (.ok publication.profile))
  | looking version selector deletes =>
      if .profile version ∈ state.directory then (state, reading version deletes)
      else (state, returned (.error (.notFound selector)))
  | reading version deletes => match readProfile state.directory version with
    | .error error => (state, returned (.error error))
    | .ok profile => (state.answer (.pinned version (state.incarnation version) profile),
        found profile deletes)
  | listing name selector deletes =>
      (state, collecting name selector (profileFiles state.directory)
        (profileFiles state.directory) [] deletes)
  | collecting name selector listed (version :: rest) profiles deletes =>
      match readProfile state.directory version with
      | .error error => (state, returned (.error error))
      | .ok profile =>
          (state, collecting name selector listed rest (profiles ++ [profile]) deletes)
  | collecting name selector listed [] profiles deletes =>
      match Query.highest name (sortProfiles profiles) with
      | none => (state, returned (.error (.notFound selector)))
      | some profile => (state.answer (.highest name listed profile), found profile deletes)
  | removing profile =>
      if .profile profile.pinned ∈ state.directory then
        (state.remove profile.pinned, returned (.ok profile))
      else (state, returned (.error ioNotFound))
  | returned result => (state, returned result)

/-- An access that fails. A check of existence then answers that there is no file; a write
leaves any content, and a renamed file stays renamed. -/
def fail (state : ProfileState) (message : String) (content : ProfileContent) :
    ProfilePhase → ProfileState × ProfilePhase
  | checking profile => (state, creating profile)
  | looking _ selector _ => (state, returned (.error (.notFound selector)))
  | writing profile =>
      (state.write (.temporary profile.pinned state.pid) content, returned (.error (.io message)))
  | returned result => (state, returned result)
  | _ => (state, returned (.error (.io message)))

end ProfilePhase

/-! ### Runs -/

structure SearchProfileStore where
  state : ProfileState
  tasks : List ProfilePhase

inductive ProfileEvent where
  | invoke (call : ProfileCall)
  | step (position : ℕ)
  | fail (position : ℕ) (message : String) (content : ProfileContent)
  /-- The process ends between two accesses, and one with another id starts. -/
  | crash (pid : ℕ)

namespace SearchProfileStore

def initial (pid : ℕ) : SearchProfileStore := ⟨.initial pid, []⟩

variable (store : SearchProfileStore)

def move (position : ℕ) (advance : ProfilePhase → ProfileState × ProfilePhase) :
    SearchProfileStore :=
  match store.tasks[position]? with
  | none => store
  | some phase => ⟨(advance phase).1, store.tasks.set position (advance phase).2⟩

def apply : ProfileEvent → SearchProfileStore
  | .invoke call => { store with tasks := store.tasks ++ [.start call] }
  | .step position => store.move position (ProfilePhase.advance store.state)
  | .fail position message content => store.move position (ProfilePhase.fail store.state message content)
  | .crash pid => ⟨{ store.state with pid := pid }, []⟩

end SearchProfileStore

/-- One access of a call that runs alone. -/
def alone (current : ProfileState × ProfilePhase) : ProfileState × ProfilePhase :=
  current.2.advance current.1

/-- The call answers so when no other call runs at the same time. -/
def ProfilePhase.Answers (state : ProfileState) (phase : ProfilePhase)
    (result : Except SearchProfileError SearchProfile) : Prop :=
  ∃ steps, (alone^[steps] (state, phase)).2 = .returned result

namespace ProfilePhase.Answers

variable {state : ProfileState} {phase : ProfilePhase}
variable {result : Except SearchProfileError SearchProfile}

theorem returned : (returned result).Answers state result := ⟨0, rfl⟩

theorem step (h : (phase.advance state).2.Answers (phase.advance state).1 result) :
    phase.Answers state result := by
  obtain ⟨steps, hsteps⟩ := h
  exact ⟨steps + 1, hsteps⟩

/-- What is left of a listing is read, and the highest version is picked from all of it. -/
theorem collecting (state : ProfileState) (name selector : String) (listed rest : List ProfileVersion)
    (profiles : List SearchProfile) :
    (collecting name selector listed rest profiles false).Answers state
      ((rest.mapM (readProfile state.directory)).bind fun more =>
        match highest name (sortProfiles (profiles ++ more)) with
        | some profile => .ok profile
        | none => .error (.notFound selector)) := by
  induction rest generalizing profiles with
  | nil =>
    refine .step ?_
    rw [List.mapM_nil, ProfilePhase.advance]
    change Answers _ _ (match highest name (sortProfiles (profiles ++ [])) with
      | some profile => Except.ok profile
      | none => Except.error (.notFound selector))
    rw [List.append_nil]
    cases highest name (sortProfiles profiles) with
    | none => exact .returned
    | some profile => exact .returned
  | cons version rest ih =>
    refine .step ?_
    rw [List.mapM_cons, ProfilePhase.advance]
    cases readProfile state.directory version with
    | error error => exact .returned
    | ok profile =>
      have hrest := ih (profiles ++ [profile])
      cases hmore : rest.mapM (readProfile state.directory) with
      | error error =>
        rw [hmore] at hrest
        exact hrest
      | ok more =>
        rw [hmore] at hrest
        simp only [List.append_assoc, List.singleton_append] at hrest
        exact hrest

/-- A lookup that runs alone sees one directory. -/
theorem get (state : ProfileState) (selector : String) :
    (start (.get selector)).Answers state (getProfile state.directory selector) := by
  rw [start, look]
  cases hparse : parseSelector selector with
  | error error =>
    rw [getProfile, hparse]
    exact .returned
  | ok parsed =>
    obtain ⟨name, version⟩ := parsed
    cases version with
    | some version =>
      refine .step ?_
      rw [advance, getProfile_pinned hparse]
      split
      · refine .step ?_
        rw [advance]
        cases readProfile state.directory ⟨name, version⟩ with
        | error error => exact .returned
        | ok profile => exact .returned
      · exact .returned
    | none =>
      have hcollect := collecting state name selector (profileFiles state.directory)
        (profileFiles state.directory) []
      refine .step ?_
      rw [advance, getProfile_highest hparse, listProfiles]
      cases hread : (profileFiles state.directory).mapM (readProfile state.directory) with
      | error error =>
        rw [hread] at hcollect
        exact hcollect
      | ok profiles =>
        rw [hread] at hcollect
        exact hcollect

/-- A new version is created when no temporary file stands in the way. -/
theorem create {profile : SearchProfile} (hvalid : profile.validate = .ok ())
    (habsent : .profile profile.pinned ∉ state.directory)
    (htemporary : .temporary profile.pinned state.pid ∉ state.directory) :
    (start (.create profile)).Answers state (.ok profile) := by
  rw [start, hvalid]
  refine .step ?_
  rw [advance, if_neg habsent]
  refine .step ?_
  rw [advance, if_neg htemporary]
  refine .step ?_
  have hwritten : ((state.write (.temporary profile.pinned state.pid) emptyContent).write
      (.temporary profile.pinned state.pid) (.ok profile)).directory.lookup
        (.temporary profile.pinned state.pid) = some (.ok profile) := AList.lookup_insert _
  refine .step ?_
  simp only [advance, ProfileState.write] at hwritten ⊢
  rw [hwritten]
  exact .step .returned

end ProfilePhase.Answers

end Ketebe.Query
