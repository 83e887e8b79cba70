import Ketebe.Lib.Runs
import Ketebe.SearchProfileStore
import Mathlib.Data.List.Perm.Subperm

/-!
Versions of search profiles as immutable values. A create checks that its version does not
exist and later renames a file over its name, so that the check may be out of date by then.
In a run where no rename replaces a file, every incarnation of a version has one profile.
-/
namespace Ketebe.Query

open Lib Lib.ByteCodec Lib.Runs ProfilePhase

/-! ### What is kept -/

/-- What the answer of a lookup stands for. -/
def ProfileAnswer.Holds (published : List Publication) : ProfileAnswer → Prop
  | .pinned version incarnation profile =>
      profile.pinned = version ∧ ⟨profile, incarnation⟩ ∈ published
  | .highest name listed profile => (profile.name = name ∧ profile.pinned ∈ listed) ∧
      ∀ version ∈ listed, version.name = name → version.version ≤ profile.version

namespace ProfilePhase

/-- The version whose temporary file belongs to the call. -/
def owned : ProfilePhase → Option ProfileVersion
  | writing profile => some profile.pinned
  | publishing profile => some profile.pinned
  | _ => none

def unacknowledged : ProfilePhase → Option Publication
  | syncing publication => some publication
  | _ => none

theorem unacknowledged_syncing (publication : Publication) :
    (syncing publication).unacknowledged = some publication := rfl

/-- What a call relies on between two accesses. -/
def Holds (state : ProfileState) : ProfilePhase → Prop
  | checking profile => profile.validate = .ok ()
  | creating profile => profile.validate = .ok ()
  | writing profile => profile.validate = .ok () ∧
      .temporary profile.pinned state.pid ∈ state.directory
  | publishing profile => profile.validate = .ok () ∧
      state.directory.lookup (.temporary profile.pinned state.pid) = some (.ok profile)
  | collecting _ _ listed rest found _ => found.map SearchProfile.pinned ++ rest = listed
  | _ => True

theorem temporary_of_owned {state : ProfileState} {phase : ProfilePhase}
    {version : ProfileVersion} (h : phase.Holds state) (howned : phase.owned = some version) :
    .temporary version state.pid ∈ state.directory := by
  cases phase <;> cases howned
  · exact h.2
  · exact AList.lookup_isSome.mp (by rw [h.2]; rfl)

/-- A call relies on its temporary file only. -/
theorem Holds.of_lookup {state next : ProfileState} {phase : ProfilePhase} (h : phase.Holds state)
    (hlookup : ∀ version, phase.owned = some version →
      next.directory.lookup (.temporary version next.pid) =
        state.directory.lookup (.temporary version state.pid)) : phase.Holds next := by
  cases phase with
  | writing profile =>
    refine ⟨h.1, AList.lookup_isSome.mp ?_⟩
    rw [hlookup _ rfl, AList.lookup_isSome]
    exact h.2
  | publishing profile => exact ⟨h.1, (hlookup _ rfl).trans h.2⟩
  | _ => exact h

end ProfilePhase

/-- A version is published only where it does not exist, and the first one named `default`
only as the built-in profile. -/
def ProfilePhase.Careful (state : ProfileState) : ProfilePhase → Prop
  | publishing profile => .profile profile.pinned ∉ state.directory ∧
      (profile.pinned = SearchProfile.builtIn.pinned → profile = .builtIn)
  | _ => True

/-- The invariant of the runs in which no file is replaced. -/
structure ProfileState.Sound (state : ProfileState) (tasks : List ProfilePhase) : Prop where
  stored (version : ProfileVersion) (content : ProfileContent) :
    state.directory.lookup (.profile version) = some content →
      ∃ profile : SearchProfile, content = .ok profile ∧ profile.pinned = version ∧
        profile.validate = .ok () ∧ ⟨profile, state.incarnation version⟩ ∈ state.published
  current (publication : Publication) : publication ∈ state.published →
    publication.incarnation ≤ state.incarnation publication.profile.pinned ∧
      (publication.incarnation = state.incarnation publication.profile.pinned →
        state.directory.lookup (.profile publication.profile.pinned) =
          some (.ok publication.profile))
  once : (state.published.map Publication.key).Nodup
  builtIn (publication : Publication) : publication ∈ state.published →
    publication.profile.pinned = SearchProfile.builtIn.pinned →
      publication.profile = SearchProfile.builtIn
  acknowledged :
    (state.acknowledged ++ tasks.filterMap ProfilePhase.unacknowledged).Subperm state.published
  owners : (tasks.filterMap ProfilePhase.owned).Nodup
  holds (phase : ProfilePhase) : phase ∈ tasks → phase.Holds state
  answers (answer : ProfileAnswer) : answer ∈ state.answers → answer.Holds state.published

namespace ProfileState.Sound

variable {state : ProfileState} {tasks others : List ProfilePhase} {phase : ProfilePhase}

theorem initial (pid : ℕ) : (ProfileState.initial pid).Sound [] where
  stored version content h := by cases h
  current publication h := by cases h
  once := List.nodup_nil
  builtIn publication h := by cases h
  acknowledged := List.Subperm.refl _
  owners := List.nodup_nil
  holds phase h := by cases h
  answers answer h := by cases h

theorem perm (h : state.Sound tasks) (hperm : tasks.Perm others) : state.Sound others where
  stored := h.stored
  current := h.current
  once := h.once
  builtIn := h.builtIn
  acknowledged := ((hperm.symm.filterMap _).append_left _).subperm.trans h.acknowledged
  owners := (hperm.filterMap _).nodup h.owners
  holds phase hphase := h.holds phase (hperm.mem_iff.mpr hphase)
  answers := h.answers

/-- The file of a version reads as its profile. -/
theorem readProfile (h : state.Sound tasks) {version : ProfileVersion}
    (hexists : .profile version ∈ state.directory) :
    ∃ profile : SearchProfile, Query.readProfile state.directory version = .ok profile ∧
      profile.pinned = version ∧ profile.validate = .ok () ∧
      ⟨profile, state.incarnation version⟩ ∈ state.published ∧
      state.directory.lookup (.profile version) = some (.ok profile) := by
  obtain ⟨content, hcontent⟩ := Option.isSome_iff_exists.mp (AList.lookup_isSome.mpr hexists)
  obtain ⟨profile, rfl, hpinned, hvalid, hpublished⟩ := h.stored version content hcontent
  refine ⟨profile, ?_, hpinned, hvalid, hpublished, hcontent⟩
  rw [Query.readProfile, hcontent]
  change (profile.validate >>= fun _ => pure profile) = _
  rw [hvalid]
  rfl

theorem readProfile_ok (h : state.Sound tasks) {version : ProfileVersion} {profile : SearchProfile}
    (hread : Query.readProfile state.directory version = .ok profile) :
    profile.pinned = version ∧ profile.validate = .ok () ∧
      ⟨profile, state.incarnation version⟩ ∈ state.published ∧
      state.directory.lookup (.profile version) = some (.ok profile) := by
  by_cases hexists : .profile version ∈ state.directory
  · obtain ⟨other, hother, hrest⟩ := h.readProfile hexists
    rw [hread] at hother
    exact Except.ok.inj hother ▸ hrest
  · rw [Query.readProfile, AList.lookup_eq_none.mpr hexists] at hread
    cases hread

/-! ### Changes of the state -/

/-- A call is left out. -/
theorem tail (h : state.Sound (phase :: others)) : state.Sound others where
  stored := h.stored
  current := h.current
  once := h.once
  builtIn := h.builtIn
  acknowledged := List.Subperm.trans
    (((List.sublist_cons_self phase others).filterMap _).append_left _).subperm h.acknowledged
  owners := h.owners.sublist ((List.sublist_cons_self phase others).filterMap _)
  holds other hother := h.holds other (List.mem_cons_of_mem _ hother)
  answers := h.answers

/-- A call that owns nothing is added. -/
theorem cons (h : state.Sound others) (howned : phase.owned = none)
    (hunacknowledged : phase.unacknowledged = none) (hholds : phase.Holds state) :
    state.Sound (phase :: others) where
  stored := h.stored
  current := h.current
  once := h.once
  builtIn := h.builtIn
  acknowledged := by
    rw [List.filterMap_cons_none hunacknowledged]
    exact h.acknowledged
  owners := by
    rw [List.filterMap_cons_none howned]
    exact h.owners
  holds other hother := by
    rcases List.mem_cons.mp hother with rfl | hother
    · exact hholds
    · exact h.holds other hother
  answers := h.answers

/-- A call goes on without a change of the state. -/
theorem next (h : state.Sound (phase :: others)) {phase' : ProfilePhase}
    (howned : phase'.owned = none) (hunacknowledged : phase'.unacknowledged = none)
    (hholds : phase'.Holds state) : state.Sound (phase' :: others) :=
  h.tail.cons howned hunacknowledged hholds

/-- The calls that own a temporary file own different ones. -/
theorem owned_ne (h : state.Sound (phase :: others)) {version : ProfileVersion}
    (howned : phase.owned = some version) {other : ProfilePhase} (hother : other ∈ others)
    {version' : ProfileVersion} (howned' : other.owned = some version') : version' ≠ version := by
  have howners := h.owners
  rw [List.filterMap_cons_some howned] at howners
  rintro rfl
  exact (List.nodup_cons.mp howners).1 (List.mem_filterMap.mpr ⟨other, hother, howned'⟩)

/-- A call writes to a temporary file that no other call owns. -/
theorem write (h : state.Sound (phase :: others)) {version : ProfileVersion}
    {content : ProfileContent} {phase' : ProfilePhase}
    (howned : phase'.owned = none ∨ phase'.owned = some version)
    (hothers : ∀ other ∈ others, other.owned ≠ some version)
    (hunacknowledged : phase'.unacknowledged = none)
    (hholds : phase'.Holds (state.write (.temporary version state.pid) content)) :
    (state.write (.temporary version state.pid) content).Sound (phase' :: others) where
  stored other content' hlookup :=
    h.stored other content' (profile_write.symm.trans hlookup)
  current publication hpublication := by
    obtain ⟨hle, hlookup⟩ := h.current publication hpublication
    exact ⟨hle, fun hsame => profile_write.trans (hlookup hsame)⟩
  once := h.once
  builtIn := h.builtIn
  acknowledged := by
    rw [List.filterMap_cons_none hunacknowledged]
    exact h.tail.acknowledged
  owners := by
    obtain hnone | hsome := howned
    · rw [List.filterMap_cons_none hnone]
      exact h.tail.owners
    · rw [List.filterMap_cons_some hsome]
      refine List.nodup_cons.mpr ⟨fun hmem => ?_, h.tail.owners⟩
      obtain ⟨other, hother, howned'⟩ := List.mem_filterMap.mp hmem
      exact hothers other hother howned'
  holds other hother := by
    rcases List.mem_cons.mp hother with rfl | hother
    · exact hholds
    · refine (h.tail.holds other hother).of_lookup fun version' howned' => ?_
      refine lookup_write_ne fun hsame => hothers other hother ?_
      rw [howned', (ProfileFile.temporary.inj hsame).1]
  answers := h.answers

/-- A version that does not exist is published. -/
theorem publish {profile : SearchProfile} (h : state.Sound (.publishing profile :: others))
    (habsent : .profile profile.pinned ∉ state.directory)
    (hbuiltIn : profile.pinned = SearchProfile.builtIn.pinned → profile = .builtIn) :
    (state.publish profile (.ok profile)).Sound
      (.syncing ⟨profile, state.incarnation profile.pinned⟩ :: others) where
  stored version content hlookup := by
    by_cases hversion : version = profile.pinned
    · subst hversion
      rw [profile_publish] at hlookup
      exact ⟨profile, (Option.some.inj hlookup).symm, rfl,
        (h.holds _ List.mem_cons_self).1, List.mem_cons_self⟩
    · rw [profile_publish_ne hversion] at hlookup
      obtain ⟨other, hcontent, hpinned, hvalid, hpublished⟩ := h.stored version content hlookup
      exact ⟨other, hcontent, hpinned, hvalid, List.mem_cons_of_mem _ hpublished⟩
  current publication hpublication := by
    obtain rfl | hpublication := List.mem_cons.mp hpublication
    · exact ⟨le_rfl, fun _ => profile_publish⟩
    · obtain ⟨hle, hlookup⟩ := h.current publication hpublication
      refine ⟨hle, fun hincarnation => ?_⟩
      have hstands := hlookup hincarnation
      refine (profile_publish_ne fun hsame => ?_).trans hstands
      refine habsent (AList.lookup_isSome.mp ?_)
      rw [← hsame, hstands]
      rfl
  once := by
    refine List.nodup_cons.mpr ⟨fun hmem => ?_, h.once⟩
    obtain ⟨publication, hpublication, hkey⟩ := List.mem_map.mp hmem
    obtain ⟨hpinned, hincarnation⟩ := Prod.mk.inj hkey
    have hstands := (h.current publication hpublication).2 (by rw [hincarnation, hpinned])
    refine habsent (AList.lookup_isSome.mp ?_)
    rw [← hpinned, hstands]
    rfl
  builtIn publication hpublication := by
    obtain rfl | hpublication := List.mem_cons.mp hpublication
    · exact hbuiltIn
    · exact h.builtIn publication hpublication
  acknowledged := by
    rw [List.filterMap_cons_some (unacknowledged_syncing _)]
    exact List.perm_middle.subperm.trans ((List.subperm_cons _).mpr h.tail.acknowledged)
  owners := h.tail.owners
  holds other hother := by
    rcases List.mem_cons.mp hother with rfl | hother
    · trivial
    · refine (h.tail.holds other hother).of_lookup fun version howned => ?_
      exact temporary_publish_ne (h.owned_ne rfl hother howned)
  answers answer hanswer := by
    have hold := h.answers answer hanswer
    cases answer with
    | pinned version incarnation other => exact ⟨hold.1, List.mem_cons_of_mem _ hold.2⟩
    | highest name listed other => exact hold

theorem acknowledge {publication : Publication} (h : state.Sound (.syncing publication :: others))
    {result : Except SearchProfileError SearchProfile} :
    (state.acknowledge publication).Sound (.returned result :: others) where
  stored := h.stored
  current := h.current
  once := h.once
  builtIn := h.builtIn
  acknowledged := by
    have hold := h.acknowledged
    rw [List.filterMap_cons_some (unacknowledged_syncing _)] at hold
    rw [List.filterMap_cons_none rfl]
    exact List.perm_middle.symm.subperm.trans hold
  owners := h.owners
  holds other hother := by
    rcases List.mem_cons.mp hother with rfl | hother
    · trivial
    · exact (h.tail.holds other hother).of_lookup fun _ _ => rfl
  answers := h.answers

/-- A removed version may come again, with another incarnation. -/
theorem remove {version : ProfileVersion} (h : state.Sound (phase :: others))
    {result : Except SearchProfileError SearchProfile} :
    (state.remove version).Sound (.returned result :: others) where
  stored other content hlookup := by
    by_cases hversion : other = version
    · subst hversion
      rw [profile_remove] at hlookup
      cases hlookup
    · rw [lookup_remove_ne fun hsame => hversion (ProfileFile.profile.inj hsame)] at hlookup
      obtain ⟨profile, hcontent, hpinned, hvalid, hpublished⟩ := h.stored other content hlookup
      rw [incarnation_remove_ne hversion]
      exact ⟨profile, hcontent, hpinned, hvalid, hpublished⟩
  current publication hpublication := by
    obtain ⟨hle, hlookup⟩ := h.current publication hpublication
    by_cases hversion : publication.profile.pinned = version
    · subst hversion
      rw [incarnation_remove]
      exact ⟨hle.trans (Nat.le_succ _), fun hsame => absurd (hsame ▸ hle) (Nat.not_succ_le_self _)⟩
    · rw [incarnation_remove_ne hversion,
        lookup_remove_ne fun hsame => hversion (ProfileFile.profile.inj hsame)]
      exact ⟨hle, hlookup⟩
  once := h.once
  builtIn := h.builtIn
  acknowledged := h.tail.acknowledged
  owners := h.tail.owners
  holds other hother := by
    rcases List.mem_cons.mp hother with rfl | hother
    · trivial
    · exact (h.tail.holds other hother).of_lookup fun _ _ =>
        lookup_remove_ne ProfileFile.noConfusion
  answers := h.answers

/-- A lookup answers, and a deletion goes on from there. -/
theorem answer (h : state.Sound (phase :: others)) (answer : ProfileAnswer)
    (hanswer : answer.Holds state.published) (profile : SearchProfile) (deletes : Bool) :
    (state.answer answer).Sound (.found profile deletes :: others) := by
  have hnext : state.Sound (.found profile deletes :: others) := by
    cases deletes with
    | false => exact h.next rfl rfl trivial
    | true => exact h.next rfl rfl trivial
  exact {
    stored := hnext.stored
    current := hnext.current
    once := hnext.once
    builtIn := hnext.builtIn
    acknowledged := hnext.acknowledged
    owners := hnext.owners
    holds := fun other hother => (hnext.holds other hother).of_lookup fun _ _ => rfl
    answers := fun other hother => by
      obtain rfl | hother := List.mem_cons.mp hother
      · exact hanswer
      · exact hnext.answers other hother }

/-! ### Accesses -/

theorem advance (h : state.Sound (phase :: others)) (hcareful : phase.Careful state) :
    (phase.advance state).1.Sound ((phase.advance state).2 :: others) := by
  have hphase := h.holds phase List.mem_cons_self
  cases phase with
  | checking profile =>
    rw [ProfilePhase.advance]
    split
    · exact h.next rfl rfl trivial
    · exact h.next rfl rfl hphase
  | creating profile =>
    rw [ProfilePhase.advance]
    split
    · exact h.next rfl rfl trivial
    · rename_i habsent
      refine h.write (.inr rfl) (fun other hother howned => habsent ?_) rfl
        ⟨hphase, AList.mem_insert _ |>.mpr (.inl rfl)⟩
      exact temporary_of_owned (h.tail.holds other hother) howned
  | writing profile =>
    exact h.write (.inr rfl) (fun other hother howned => h.owned_ne rfl hother howned rfl) rfl
      ⟨hphase.1, AList.lookup_insert _⟩
  | publishing profile =>
    rw [ProfilePhase.advance, hphase.2]
    exact h.publish hcareful.1 hcareful.2
  | syncing publication => exact h.acknowledge
  | looking version selector deletes =>
    rw [ProfilePhase.advance]
    split
    · exact h.next rfl rfl trivial
    · exact h.next rfl rfl trivial
  | reading version deletes =>
    rw [ProfilePhase.advance]
    cases hread : Query.readProfile state.directory version with
    | error error => exact h.next rfl rfl trivial
    | ok profile =>
      obtain ⟨hpinned, -, hpublished, -⟩ := h.readProfile_ok hread
      exact h.answer (.pinned ..) ⟨hpinned, hpublished⟩ profile deletes
  | listing name selector deletes => exact h.next rfl rfl rfl
  | collecting name selector listed rest profiles deletes =>
    cases rest with
    | nil =>
      rw [ProfilePhase.advance]
      cases hhighest : highest name (sortProfiles profiles) with
      | none => exact h.next rfl rfl trivial
      | some profile =>
        obtain ⟨⟨hmem, hname⟩, hle⟩ := highest_eq_some hhighest
        have hlisted : profiles.map SearchProfile.pinned = listed := by
          rw [← List.append_nil (profiles.map _)]
          exact hphase
        refine h.answer (.highest ..) ⟨⟨hname, ?_⟩, fun version hversion hsame => ?_⟩ profile deletes
        · rw [← hlisted]
          exact List.mem_map_of_mem (mem_sortProfiles.mp hmem)
        · rw [← hlisted] at hversion
          obtain ⟨other, hother, rfl⟩ := List.mem_map.mp hversion
          exact hle other (mem_sortProfiles.mpr hother) hsame
    | cons version rest =>
      rw [ProfilePhase.advance]
      cases hread : Query.readProfile state.directory version with
      | error error => exact h.next rfl rfl trivial
      | ok profile =>
        refine h.next rfl rfl ?_
        change (profiles ++ [profile]).map SearchProfile.pinned ++ rest = listed
        rw [List.map_append, List.append_assoc, List.map_singleton, (h.readProfile_ok hread).1]
        exact hphase
  | removing profile =>
    rw [ProfilePhase.advance]
    split
    · exact h.remove
    · exact h.next rfl rfl trivial
  | returned result => exact h

theorem fail (h : state.Sound (phase :: others)) (message : String) (content : ProfileContent) :
    (phase.fail state message content).1.Sound ((phase.fail state message content).2 :: others) := by
  have hphase := h.holds phase List.mem_cons_self
  cases phase with
  | checking profile => exact h.next rfl rfl hphase
  | writing profile =>
    exact h.write (.inl rfl) (fun other hother howned => h.owned_ne rfl hother howned rfl) rfl
      trivial
  | returned result => exact h
  | _ => exact h.next rfl rfl trivial

/-- A call that moves is one of those in flight. -/
theorem move {store : SearchProfileStore} (h : store.state.Sound store.tasks) {position : ℕ}
    {advance : ProfilePhase → ProfileState × ProfilePhase}
    (hadvance : ∀ phase others, store.tasks[position]? = some phase →
      store.state.Sound (phase :: others) → (advance phase).1.Sound ((advance phase).2 :: others)) :
    (store.move position advance).state.Sound (store.move position advance).tasks := by
  rw [SearchProfileStore.move]
  cases hphase : store.tasks[position]? with
  | none => exact h
  | some phase =>
    obtain ⟨hposition, rfl⟩ := List.getElem?_eq_some_iff.mp hphase
    have hcurrent := h.perm (List.getElem_cons_eraseIdx_perm hposition).symm
    exact (hadvance _ _ hphase hcurrent).perm (List.set_perm_cons_eraseIdx hposition _).symm

theorem crash (h : state.Sound tasks) (pid : ℕ) : { state with pid := pid }.Sound [] where
  stored := h.stored
  current := h.current
  once := h.once
  builtIn := h.builtIn
  acknowledged := by
    refine List.Subperm.trans ?_ h.acknowledged
    exact ((List.nil_sublist _).append_left _).subperm
  owners := List.nodup_nil
  holds phase hphase := by cases hphase
  answers := h.answers

theorem invoke (h : state.Sound tasks) (call : ProfileCall) :
    state.Sound (tasks ++ [.start call]) := by
  have hlook (selector : String) (deletes : Bool) :
      state.Sound (look selector deletes :: tasks) := by
    rw [look]
    split
    · exact h.cons rfl rfl trivial
    · exact h.cons rfl rfl trivial
    · exact h.cons rfl rfl trivial
  have hstart : state.Sound (start call :: tasks) := by
    cases call with
    | create profile =>
      rw [start]
      split
      · exact h.cons rfl rfl trivial
      · rename_i hvalid
        exact h.cons rfl rfl hvalid
    | get selector => exact hlook selector false
    | delete selector => exact hlook selector true
  exact hstart.perm (List.perm_append_singleton _ _).symm

end ProfileState.Sound

/-! ### Lookups and queries -/

/-- A query without a cursor for the directory resolves its selector to the profile with
the pinned id. -/
def Denotes (directory : ProfileDirectory) (id : String) (profile : SearchProfile) : Prop :=
  ∃ request : QueryV1Request, selectProfile (fun _ => getProfile directory) request = .ok profile ∧
    profile.pinnedId = id

namespace ProfileState.Sound

variable {state : ProfileState} {tasks : List ProfilePhase} {profile : SearchProfile}

/-- The list has the profiles that the directory holds. -/
theorem listProfiles (h : state.Sound tasks) : ∃ profiles,
    Query.listProfiles state.directory = .ok profiles ∧
      (∀ profile ∈ profiles, ∃ version,
        Query.readProfile state.directory version = .ok profile) ∧
      ∀ version, .profile version ∈ state.directory → ∃ profile ∈ profiles,
        profile.pinned = version := by
  obtain ⟨profiles, hprofiles⟩ := except_mapM_exists.mpr fun version hversion =>
    (h.readProfile (mem_profileFiles.mp hversion)).imp fun _ hread => hread.1
  obtain ⟨hfrom, hinto⟩ := mem_of_except_mapM hprofiles
  refine ⟨sortProfiles profiles, by rw [Query.listProfiles, hprofiles]; rfl, ?_, ?_⟩
  · intro profile hprofile
    obtain ⟨version, -, hread⟩ := hfrom profile (mem_sortProfiles.mp hprofile)
    exact ⟨version, hread⟩
  · intro version hversion
    obtain ⟨profile, hprofile, hread⟩ := hinto version (mem_profileFiles.mpr hversion)
    exact ⟨profile, mem_sortProfiles.mpr hprofile, (h.readProfile_ok hread).1⟩

/-- A lookup by name finds the highest version. -/
theorem get_highest (h : state.Sound tasks) {selector name : String}
    (hparse : parseSelector selector = .ok (name, none))
    (hexists : ∃ version, .profile ⟨name, version⟩ ∈ state.directory) :
    ∃ profile : SearchProfile, getProfile state.directory selector = .ok profile ∧
      profile.name = name ∧ .profile profile.pinned ∈ state.directory ∧
      ∀ version, .profile ⟨name, version⟩ ∈ state.directory → version ≤ profile.version := by
  obtain ⟨profiles, hlist, hread, hall⟩ := h.listProfiles
  obtain ⟨version, hversion⟩ := hexists
  obtain ⟨listed, hlisted, hpinned⟩ := hall _ hversion
  have hname : listed.name = name := congrArg ProfileVersion.name hpinned
  obtain ⟨profile, hprofile⟩ := Option.ne_none_iff_exists'.mp (highest_ne_none hlisted hname)
  obtain ⟨⟨hmem, hsame⟩, hle⟩ := highest_eq_some hprofile
  obtain ⟨file, hfile⟩ := hread profile hmem
  obtain ⟨rfl, -, -, hstands⟩ := h.readProfile_ok hfile
  refine ⟨profile, ?_, hsame, AList.lookup_isSome.mp (by rw [hstands]; rfl), fun other hother => ?_⟩
  · rw [getProfile_highest hparse, hlist, Except.bind, hprofile]
  · obtain ⟨found, hfound, hpinned'⟩ := hall _ hother
    have hversion' := hle found hfound (congrArg ProfileVersion.name hpinned')
    rwa [show found.version = other from congrArg ProfileVersion.version hpinned'] at hversion'

/-- A profile that a lookup finds stands under its own version. -/
theorem get_ok (h : state.Sound tasks) {selector : String}
    (hget : getProfile state.directory selector = .ok profile) :
    profile.validate = .ok () ∧
      ⟨profile, state.incarnation profile.pinned⟩ ∈ state.published := by
  have hread : ∃ version, Query.readProfile state.directory version = .ok profile := by
    cases hparse : parseSelector selector with
    | error error =>
      rw [getProfile, hparse] at hget
      cases hget
    | ok parsed =>
      obtain ⟨name, version⟩ := parsed
      cases version with
      | some version =>
        rw [getProfile_pinned hparse] at hget
        split at hget
        · exact ⟨_, hget⟩
        · cases hget
      | none =>
        rw [getProfile_highest hparse] at hget
        obtain ⟨profiles, hlist, hread, -⟩ := h.listProfiles
        rw [hlist, Except.bind] at hget
        cases hhighest : highest name profiles with
        | none =>
          rw [hhighest] at hget
          cases hget
        | some found =>
          rw [hhighest] at hget
          cases hget
          exact hread _ (highest_eq_some hhighest).1.1
  obtain ⟨version, hversion⟩ := hread
  obtain ⟨rfl, hvalid, hpublished, -⟩ := h.readProfile_ok hversion
  exact ⟨hvalid, hpublished⟩

/-- A pinned id denotes the built-in profile or one that was published. -/
theorem denotes (h : state.Sound tasks) {id : String} (hdenotes : Denotes state.directory id profile) :
    profile.pinnedId = id ∧ validateName profile.name = .ok () ∧
      (profile = .builtIn ∨ ⟨profile, state.incarnation profile.pinned⟩ ∈ state.published) := by
  obtain ⟨request, hselect, hid⟩ := hdenotes
  simp only [selectProfile] at hselect
  split at hselect
  · cases hselect
    exact ⟨hid, rfl, .inl rfl⟩
  · obtain ⟨hvalid, hpublished⟩ := h.get_ok (mapError_ok_iff.mp hselect)
    exact ⟨hid, name_of_validate hvalid, .inr hpublished⟩

end ProfileState.Sound

/-! ### Publications of a step -/

namespace ProfilePhase

variable {state : ProfileState} {phase : ProfilePhase}

/-- Only a rename publishes. -/
theorem published_advance (state : ProfileState) (phase : ProfilePhase) :
    (phase.advance state).1.published = state.published ∨
    ∃ profile, phase = publishing profile ∧ (phase.advance state).1.published =
      ⟨profile, state.incarnation profile.pinned⟩ :: state.published := by
  cases phase with
  | publishing profile =>
    rw [advance]
    split
    · exact .inl rfl
    · exact .inr ⟨profile, rfl, rfl⟩
  | collecting name selector listed rest profiles deletes =>
    cases rest with
    | nil => rw [advance]; split <;> exact .inl rfl
    | cons version rest => rw [advance]; split <;> exact .inl rfl
  | syncing publication => exact .inl rfl
  | writing profile => exact .inl rfl
  | listing name selector deletes => exact .inl rfl
  | returned result => exact .inl rfl
  | _ => rw [advance]; split <;> exact .inl rfl

theorem published_fail (message : String) (content : ProfileContent) :
    (phase.fail state message content).1.published = state.published := by
  cases phase <;> rfl

/-- A version that was published before is published with the same profile. -/
def Repeats (state : ProfileState) : ProfilePhase → Prop
  | publishing profile => ∀ publication ∈ state.published,
      publication.profile.pinned = profile.pinned → publication.profile = profile
  | _ => True

end ProfilePhase

/-! ### Runs -/

namespace SearchProfileStore

variable {store later : SearchProfileStore}

/-- What is asked of the events of a run. A rename may meet no file that it replaces, and a
process starts with an id of which no temporary file is left. -/
def Careful (store : SearchProfileStore) : ProfileEvent → Prop
  | .step position => ∀ phase ∈ store.tasks[position]?, phase.Careful store.state
  | .crash pid => ∀ file ∈ store.state.directory.keys, file.pidOf ≠ some pid
  | _ => True

/-- Removed versions come again as they were. -/
def Steady (store : SearchProfileStore) (event : ProfileEvent) : Prop :=
  store.Careful event ∧ ∀ position, event = .step position →
    ∀ phase ∈ store.tasks[position]?, phase.Repeats store.state

theorem Careful.sound {event : ProfileEvent} (h : store.Careful event)
    (hsound : store.state.Sound store.tasks) :
    (store.apply event).state.Sound (store.apply event).tasks := by
  cases event with
  | invoke call => exact hsound.invoke call
  | step position =>
    exact hsound.move fun phase _ hphase hcurrent => hcurrent.advance (h phase hphase)
  | fail position message content =>
    exact hsound.move fun _ _ _ hcurrent => hcurrent.fail message content
  | crash pid => exact hsound.crash pid

theorem sound {pid : ℕ} (h : Reaches apply Careful (initial pid) store) :
    store.state.Sound store.tasks :=
  h.invariant (fun store => store.state.Sound store.tasks) (.initial pid)
    fun _ _ hsound hcareful => hcareful.sound hsound

/-- What a step publishes comes on top of what was published before. -/
theorem published_apply (store : SearchProfileStore) (event : ProfileEvent) :
    (store.apply event).state.published = store.state.published ∨
      ∃ position profile, event = .step position ∧
        store.tasks[position]? = some (.publishing profile) ∧
        (store.apply event).state.published =
          ⟨profile, store.state.incarnation profile.pinned⟩ :: store.state.published := by
  cases event with
  | invoke call => exact .inl rfl
  | crash pid => exact .inl rfl
  | step position =>
    rw [apply, move]
    cases hphase : store.tasks[position]? with
    | none => exact .inl rfl
    | some phase =>
      obtain hsame | ⟨profile, rfl, hpublished⟩ := published_advance store.state phase
      · exact .inl hsame
      · exact .inr ⟨position, profile, rfl, hphase, hpublished⟩
  | fail position message content =>
    rw [apply, move]
    cases hphase : store.tasks[position]? with
    | none => exact .inl rfl
    | some phase => exact .inl (published_fail message content)

theorem published_of_reaches {allowed : SearchProfileStore → ProfileEvent → Prop}
    (h : Reaches apply allowed store later) : store.state.published ⊆ later.state.published := by
  refine h.invariant (fun later => store.state.published ⊆ later.state.published)
    (List.Subset.refl _) fun middle event hsubset _ => ?_
  obtain hsame | ⟨_, _, -, -, hpublished⟩ := published_apply middle event
  · rw [hsame]
    exact hsubset
  · rw [hpublished]
    exact List.Subset.trans hsubset (List.subset_cons_self _ _)

/-- One version was published with one profile only. -/
def Constant (store : SearchProfileStore) : Prop :=
  ∀ first ∈ store.state.published, ∀ second ∈ store.state.published,
    first.profile.pinned = second.profile.pinned → first.profile = second.profile

theorem Steady.constant {event : ProfileEvent} (h : store.Steady event) (hconstant : store.Constant) :
    (store.apply event).Constant := by
  obtain hsame | ⟨position, profile, rfl, hphase, hpublished⟩ := published_apply store event
  · rw [Constant, hsame]
    exact hconstant
  · have hrepeats := h.2 position rfl _ hphase
    intro first hfirst second hsecond hpinned
    rw [hpublished] at hfirst hsecond
    obtain rfl | hfirst := List.mem_cons.mp hfirst
    · obtain rfl | hsecond := List.mem_cons.mp hsecond
      · rfl
      · exact (hrepeats second hsecond hpinned.symm).symm
    · obtain rfl | hsecond := List.mem_cons.mp hsecond
      · exact hrepeats first hfirst hpinned
      · exact hconstant first hfirst second hsecond hpinned

end SearchProfileStore

/-! ### Immutable versions -/

/-- What an answer says next to the creates that were acknowledged. -/
def ProfileAnswer.Agrees (acknowledged : List Publication) : ProfileAnswer → Prop
  | .pinned version incarnation profile => ∀ publication ∈ acknowledged,
      publication.key = (version, incarnation) → profile = publication.profile
  | .highest name listed profile => (profile.name = name ∧ profile.pinned ∈ listed) ∧
      ∀ version ∈ listed, version.name = name → version.version ≤ profile.version

/-- The versions of the store are immutable: a version is acknowledged once while it exists,
lookups find what was acknowledged and the highest version, a create can be made again after
a restart, and a pinned id denotes one profile. -/
structure SearchProfileStore.Immutable (store : SearchProfileStore) : Prop where
  acknowledged : (store.state.acknowledged.map Publication.key).Nodup
  answers (answer : ProfileAnswer) : answer ∈ store.state.answers →
    answer.Agrees store.state.acknowledged
  pinned (publication : Publication) (selector : String) :
    publication ∈ store.state.acknowledged →
    publication.incarnation = store.state.incarnation publication.profile.pinned →
    parseSelector selector = .ok (publication.profile.name, some publication.profile.version) →
      (start (.get selector)).Answers store.state (.ok publication.profile)
  highest (selector name : String) : parseSelector selector = .ok (name, none) →
    (∃ version, .profile ⟨name, version⟩ ∈ store.state.directory) →
      ∃ profile : SearchProfile, (start (.get selector)).Answers store.state (.ok profile) ∧
        profile.name = name ∧ .profile profile.pinned ∈ store.state.directory ∧
        ∀ version, .profile ⟨name, version⟩ ∈ store.state.directory → version ≤ profile.version
  retried (pid : ℕ) (profile : SearchProfile) : store.Careful (.crash pid) →
    profile.validate = .ok () → .profile profile.pinned ∉ store.state.directory →
      (start (.create profile)).Answers (store.apply (.crash pid)).state (.ok profile)
  denotes (id : String) (first second : SearchProfile) :
    Denotes store.state.directory id first → Denotes store.state.directory id second →
      first = second

namespace ProfileState.Sound

variable {state : ProfileState} {tasks : List ProfilePhase}

theorem mem_published (h : state.Sound tasks) {publication : Publication}
    (hmem : publication ∈ state.acknowledged) : publication ∈ state.published :=
  h.acknowledged.subset (List.mem_append_left _ hmem)

/-- Publications of one incarnation are one. -/
theorem eq_of_key (h : state.Sound tasks) {first second : Publication}
    (hfirst : first ∈ state.published) (hsecond : second ∈ state.published)
    (hkey : first.key = second.key) : first = second :=
  List.inj_on_of_nodup_map h.once hfirst hsecond hkey

theorem nodup_acknowledged (h : state.Sound tasks) :
    (state.acknowledged.map Publication.key).Nodup := by
  obtain ⟨published, hperm, hsublist⟩ := h.acknowledged
  have hnodup := (hperm.map Publication.key).nodup (h.once.sublist (hsublist.map _))
  rw [List.map_append] at hnodup
  exact (List.nodup_append.mp hnodup).1

theorem agrees (h : state.Sound tasks) {answer : ProfileAnswer} (hanswer : answer ∈ state.answers) :
    answer.Agrees state.acknowledged := by
  have hholds := h.answers answer hanswer
  cases answer with
  | pinned version incarnation profile =>
    intro publication hpublication hkey
    obtain ⟨rfl, hpublished⟩ := hholds
    exact congrArg Publication.profile
      (h.eq_of_key hpublished (h.mem_published hpublication) hkey.symm)
  | highest name listed profile => exact hholds

theorem get_acknowledged (h : state.Sound tasks) {publication : Publication} {selector : String}
    (hmem : publication ∈ state.acknowledged)
    (hcurrent : publication.incarnation = state.incarnation publication.profile.pinned)
    (hparse : parseSelector selector =
      .ok (publication.profile.name, some publication.profile.version)) :
    getProfile state.directory selector = .ok publication.profile := by
  have hstands := (h.current publication (h.mem_published hmem)).2 hcurrent
  have hexists : .profile publication.profile.pinned ∈ state.directory :=
    AList.lookup_isSome.mp (by rw [hstands]; rfl)
  obtain ⟨profile, hread, -, -, -, hlookup⟩ := h.readProfile hexists
  rw [hstands] at hlookup
  cases hlookup
  rw [getProfile_pinned hparse]
  exact (if_pos hexists).trans hread

/-- Two profiles of one version are the same, unless both were published. -/
theorem eq_or_published (h : state.Sound tasks) {first second : SearchProfile}
    {incarnation other : ℕ} (hpinned : first.pinned = second.pinned)
    (hfirst : first = .builtIn ∨ ⟨first, incarnation⟩ ∈ state.published)
    (hsecond : second = .builtIn ∨ ⟨second, other⟩ ∈ state.published) :
    first = second ∨ ⟨first, incarnation⟩ ∈ state.published ∧ ⟨second, other⟩ ∈ state.published := by
  rcases hfirst with rfl | hfirst
  · rcases hsecond with rfl | hsecond
    · exact .inl rfl
    · exact .inl (h.builtIn _ hsecond hpinned.symm).symm
  · rcases hsecond with rfl | hsecond
    · exact .inl (h.builtIn _ hfirst hpinned)
    · exact .inr ⟨hfirst, hsecond⟩

theorem denotes_eq (h : state.Sound tasks) {id : String} {first second : SearchProfile}
    (hfirst : Denotes state.directory id first) (hsecond : Denotes state.directory id second) :
    first = second := by
  obtain ⟨hid, hname, hfirst⟩ := h.denotes hfirst
  obtain ⟨hid', hname', hsecond⟩ := h.denotes hsecond
  have hpinned := pinned_of_pinnedId hname hname' (hid.trans hid'.symm)
  obtain hsame | ⟨hfirst, hsecond⟩ := h.eq_or_published hpinned hfirst hsecond
  · exact hsame
  · refine congrArg Publication.profile (h.eq_of_key hfirst hsecond ?_)
    rw [Publication.key, Publication.key, hpinned]

theorem immutable {store : SearchProfileStore} (h : store.state.Sound store.tasks) :
    store.Immutable where
  acknowledged := h.nodup_acknowledged
  answers _ hanswer := h.agrees hanswer
  pinned _ selector hmem hcurrent hparse := by
    have hget := ProfilePhase.Answers.get store.state selector
    rwa [h.get_acknowledged hmem hcurrent hparse] at hget
  highest selector name hparse hexists := by
    obtain ⟨profile, hprofile, hhighest⟩ := h.get_highest hparse hexists
    have hget := ProfilePhase.Answers.get store.state selector
    rw [hprofile] at hget
    exact ⟨profile, hget, hhighest⟩
  retried pid profile hpid hvalid habsent :=
    .create hvalid habsent fun hmem => hpid _ (AList.mem_keys.mp hmem) rfl
  denotes _ _ _ hfirst hsecond := h.denotes_eq hfirst hsecond

end ProfileState.Sound

namespace SearchProfileStore

/-- In every run whose events are careful the versions are immutable. Where removed versions
also come again as they were, a pinned id denotes one profile during the whole run. -/
theorem versions_immutable (pid : ℕ) :
    (∀ store, Reaches apply Careful (initial pid) store → store.Immutable) ∧
    ∀ store later, Reaches apply Steady (initial pid) store → Reaches apply Steady store later →
      ∀ id first second, Denotes store.state.directory id first →
        Denotes later.state.directory id second → first = second := by
  refine ⟨fun store hrun => (sound hrun).immutable, ?_⟩
  intro store later hrun hlater id first second hfirst hsecond
  have hkept (store : SearchProfileStore) (event : ProfileEvent)
      (h : store.state.Sound store.tasks ∧ store.Constant) (hsteady : store.Steady event) :
      (store.apply event).state.Sound (store.apply event).tasks ∧ (store.apply event).Constant :=
    ⟨hsteady.1.sound h.1, hsteady.constant h.2⟩
  have hstart := hrun.invariant (fun store => store.state.Sound store.tasks ∧ store.Constant)
    ⟨.initial pid, nofun⟩ hkept
  have hend := hlater.invariant (fun store => store.state.Sound store.tasks ∧ store.Constant)
    hstart hkept
  obtain ⟨hid, hname, hfirst⟩ := hstart.1.denotes hfirst
  obtain ⟨hid', hname', hsecond⟩ := hend.1.denotes hsecond
  have hpinned := pinned_of_pinnedId hname hname' (hid.trans hid'.symm)
  obtain hsame | ⟨hpublished, hpublished'⟩ := hend.1.eq_or_published hpinned
    (hfirst.imp_right fun hmem => published_of_reaches hlater hmem) hsecond
  · exact hsame
  · exact hend.2 _ hpublished _ hpublished' hpinned

/-! ### Creates of one version -/

instance (state : ProfileState) : (phase : ProfilePhase) → Decidable (phase.Careful state)
  | .publishing _ => inferInstanceAs (Decidable (_ ∧ _))
  | .checking _ | .creating _ | .writing _ | .syncing _ | .looking .. | .reading .. | .listing ..
  | .collecting .. | .removing _ | .returned _ => .isTrue trivial

instance (store : SearchProfileStore) : (event : ProfileEvent) → Decidable (store.Careful event)
  | .step position =>
      inferInstanceAs (Decidable (∀ phase ∈ store.tasks[position]?, phase.Careful store.state))
  | .crash pid =>
      inferInstanceAs (Decidable (∀ file ∈ store.state.directory.keys, file.pidOf ≠ some pid))
  | .invoke _ | .fail .. => .isTrue trivial

def fastProfile (finalTopK : ℕ) : SearchProfile :=
  ⟨"fast", 1, .auto, none, none, defaultRrfK, finalTopK, none, none⟩

def fullSteps (position : ℕ) : List ProfileEvent := List.replicate 5 (.step position)

/-- A create leaves its temporary file behind when it ends; the next process makes another. -/
theorem versions_immutable_fastProfile :
    let events := .invoke (.create (fastProfile 10)) :: .step 0 :: .step 0 :: .crash 2 ::
      .invoke (.create (fastProfile 20)) :: fullSteps 0
    (events.foldl apply (initial 1)).Immutable ∧
      (events.foldl apply (initial 1)).state.acknowledged = [⟨fastProfile 20, 0⟩] :=
  ⟨(versions_immutable 1).1 _ (Reaches.of_allowed (by decide)), by decide⟩

/-- Both creates find that the version does not exist; the second one replaces the file of
the first, and each is told that it has created the version. -/
theorem not_immutable_twoCreates :
    ¬∀ store, Reaches apply (fun _ _ => True) (initial 1) store → store.Immutable := by
  intro h
  have himmutable := h _ (Reaches.foldl (.invoke (.create (fastProfile 10)) ::
    .invoke (.create (fastProfile 20)) :: .step 0 :: .step 1 ::
      List.replicate 4 (.step 0) ++ List.replicate 4 (.step 1)) _)
  exact absurd himmutable.acknowledged (by decide)

end SearchProfileStore

end Ketebe.Query
