import Ketebe.Lib.Directories
import Ketebe.WriteService

/-!
Reclaiming the log, file by file. The retained mutations are appended one by one to a log
aside, which is renamed over the log. To the rest of the program this is the one step of
`WriteService.replaceWal`.
-/
namespace Ketebe

open Lib.ByteCodec Lib.Directories Lib.Durable Lib.Durable.Program

inductive WalReclaimError where
  | io
  | wal (error : WalError)

namespace WalReclaim

def tempPath (path : String) : String := path ++ ".reclaim.tmp"

def openLog (temp : String) : Program Directory WalReclaimError Wal := do
  let directory ← get
  let log ← lift ((Wal.openWithPolicy directory[temp]? .durable).mapError .wal)
  createIfMissing (.wal .io) temp
  pure log

/-- What an open log knows of its file is the last sequence number. -/
def append (temp : String) (last : Option SequenceNumber) (mutation : WalMutation) :
    Program Directory WalReclaimError (Option SequenceNumber) := do
  let (encoded, last) ← lift ((Wal.encodeBatch last [mutation]).mapError .wal)
  writeAll (.wal .io) temp encoded
  attempt (.wal .io)
  pure last

def appendAll (temp : String) :
    Option SequenceNumber → List WalMutation → Program Directory WalReclaimError Unit
  | _, [] => pure ()
  | last, mutation :: rest => do
    let last ← append temp last mutation
    appendAll temp last rest

def reclaimWal (path : String) (retained : List WalMutation) :
    Program Directory WalReclaimError Unit := do
  attempt .io
  removeIfExists .io (tempPath path)
  let log ← openLog (tempPath path)
  appendAll (tempPath path) log.lastSequence retained
  install .io (tempPath path) path

/-! ### The log aside -/

section Aside

variable {temp : String} {before state : Directory} {log : Wal}

/-- The log aside is this one; its writer has the policy of `open`. -/
structure Writes (temp : String) (before state : Directory) (log : Wal) : Prop where
  same : SameBut temp before state
  content : state[temp]? = some log.file
  policy : log.syncPolicy = .durable

theorem openLog_aside (h : SameBut temp before state) (hnone : state[temp]? = none) :
    (openLog temp).Ensures ⟨fun log after => log = Wal.fresh .durable ∧ Writes temp before after log,
      fun _ after => SameBut temp before after, fun after => SameBut temp before after⟩ state := by
  refine ensures_getBind (ensures_bind (ensures_lift (fun log hlog => ?_) fun _ _ => h))
  rw [hnone] at hlog
  cases hlog
  refine ensures_of_aside (createIfMissing_aside (WalReclaimError.wal .io) h hnone)
    (fun _ _ h => h) (fun _ h => h) fun after hafter hcontent => ?_
  exact ensures_pure ⟨rfl, hafter, hcontent, rfl⟩

/-- One more frame is behind those of the log. -/
theorem appendBatch_of_encode {mutation : WalMutation} {encoded : Bytes}
    {last : Option SequenceNumber}
    (h : Wal.encodeBatch log.lastSequence [mutation] = .ok (encoded, last)) :
    log.appendBatch [mutation] .done =
      ({ log with file := log.file ++ encoded, lastSequence := last }, .ok ()) := by
  have hcons : ([mutation] : List WalMutation).isEmpty = false := rfl
  simp only [Wal.appendBatch, hcons, h, Wal.writeBatch, Wal.writeFile]
  rfl

theorem append_aside (h : Writes temp before state log) (mutation : WalMutation) :
    (append temp log.lastSequence mutation).Ensures
      ⟨fun last after => ∃ next : Wal, log.appendBatch [mutation] .done = (next, .ok ()) ∧
          next.lastSequence = last ∧ Writes temp before after next,
        fun _ after => SameBut temp before after, fun after => SameBut temp before after⟩ state := by
  refine ensures_bind (ensures_lift (fun result hresult => ?_) fun _ _ => h.same)
  obtain ⟨encoded, last⟩ := result
  have hencoded := appendBatch_of_encode (mapError_ok_iff.mp hresult)
  refine ensures_bind ((writeAll_aside (WalReclaimError.wal .io) h.same h.content encoded).mono
    (fun _ after hafter => ?_) (fun _ _ hafter => hafter) fun _ hafter => hafter)
  refine ensures_bind (ensures_attempt ?_ hafter.1 hafter.1)
  exact ensures_pure ⟨_, hencoded, rfl, hafter.1, hafter.2, h.policy⟩

theorem appendAll_aside (h : Writes temp before state log) (retained : List WalMutation) :
    (appendAll temp log.lastSequence retained).Ensures
      ⟨fun _ after => ∃ next : Wal,
          log.appendAll (retained.map fun mutation => [mutation]) = .ok next ∧
            Writes temp before after next,
        fun _ after => SameBut temp before after, fun after => SameBut temp before after⟩ state := by
  induction retained generalizing state log with
  | nil => exact ensures_pure ⟨log, rfl, h⟩
  | cons mutation rest ih =>
    refine ensures_bind ((append_aside h mutation).mono (fun last after hafter => ?_)
      (fun _ _ hafter => hafter) fun _ hafter => hafter)
    obtain ⟨next, hnext, rfl, hwrites⟩ := hafter
    refine (ih hwrites).mono (fun _ final hfinal => ?_) (fun _ _ hfinal => hfinal)
      fun _ hfinal => hfinal
    obtain ⟨all, hall, hfinal⟩ := hfinal
    refine ⟨all, ?_, hfinal⟩
    rw [List.map_cons, Wal.appendAll, hnext]
    exact hall

end Aside

/-! ### One step -/

theorem tempPath_ne (path : String) : path ≠ tempPath path := by
  intro h
  have hlength := congrArg String.length h
  rw [tempPath, String.length_append] at hlength
  have hsuffix : ".reclaim.tmp".length = 12 := rfl
  omega

/-- The log is as before, or it is that of the retained mutations. -/
def Reclaimed (path : String) (retained : List WalMutation) (after : Directory) : Prop :=
  ∃ log, WriteService.reclaimedLog retained = .ok log ∧ after[path]? = some log.file

theorem reclaimWal_reclaims (path : String) (retained : List WalMutation) (before : Directory) :
    (reclaimWal path retained).Ensures
      ⟨fun _ after => Reclaimed path retained after,
        fun _ after => after[path]? = before[path]? ∨ Reclaimed path retained after,
        fun after => after[path]? = before[path]? ∨ Reclaimed path retained after⟩ before := by
  have hsame {after : Directory} (h : SameBut (tempPath path) before after) :
      after[path]? = before[path]? ∨ Reclaimed path retained after := .inl (h path (tempPath_ne path))
  refine ensures_bind (ensures_attempt ?_ (.inl rfl) (.inl rfl))
  refine ensures_of_aside (removeIfExists_aside WalReclaimError.io (SameBut.refl _ before))
    (fun _ _ h => hsame h) (fun _ h => hsame h) fun removed hremoved hnone => ?_
  refine ensures_bind ((openLog_aside hremoved hnone).mono (fun log opened hopened => ?_)
    (fun _ _ h => hsame h) fun _ h => hsame h)
  obtain ⟨rfl, hopened⟩ := hopened
  refine ensures_bind ((appendAll_aside hopened retained).mono (fun _ written hwritten => ?_)
    (fun _ _ h => hsame h) fun _ h => hsame h)
  obtain ⟨log, hlog, hwrites⟩ := hwritten
  have hreplaced {after : Directory}
      (h : Lib.Directories.Replaced (tempPath path) path log.file before after) :
      Reclaimed path retained after := ⟨log, hlog, h.1⟩
  exact (install_replaces WalReclaimError.io hwrites.same hwrites.content).mono
    (fun _ _ h => hreplaced h) (fun _ _ h => h.elim hsame fun h => .inr (hreplaced h))
    fun _ h => h.elim hsame fun h => .inr (hreplaced h)

/-! ### Without faults -/

section Returns

variable {temp : String} {before state : Directory} {log : Wal}

theorem returns_openLog (h : SameBut temp before state) (hnone : state[temp]? = none) :
    ∃ after, (openLog temp).Returns state (Wal.fresh .durable) after ∧
      Writes temp before after (Wal.fresh .durable) := by
  have hcreate := returns_createIfMissing (WalReclaimError.wal .io) hnone
  refine ⟨_, returns_getBind (returns_bind (returns_lift ?_) (returns_bind hcreate returns_pure)),
    h.insert [], getElem?_insert_self state [], rfl⟩
  rw [hnone]
  rfl

theorem encode_of_appendBatch {mutation : WalMutation} {next : Wal}
    (h : log.appendBatch [mutation] .done = (next, .ok ())) : ∃ encoded,
      Wal.encodeBatch log.lastSequence [mutation] = .ok (encoded, next.lastSequence) ∧
        next = { log with file := log.file ++ encoded, lastSequence := next.lastSequence } := by
  obtain ⟨hincreasing, encoded, hencoded, rfl⟩ := Wal.appendBatch_done_iff.mp h
  exact ⟨encoded, Wal.encodeBatch_ok_iff.mpr ⟨hincreasing, hencoded, rfl⟩, rfl⟩

theorem returns_appendAll (h : Writes temp before state log) {retained : List WalMutation}
    {next : Wal} (hall : log.appendAll (retained.map fun mutation => [mutation]) = .ok next) :
    ∃ after, (appendAll temp log.lastSequence retained).Returns state () after ∧
      Writes temp before after next := by
  induction retained generalizing state log with
  | nil =>
    cases hall
    exact ⟨state, returns_pure, h⟩
  | cons mutation rest ih =>
    rw [List.map_cons, Wal.appendAll] at hall
    split at hall
    · rename_i middle hmiddle
      obtain ⟨encoded, hencoded, hfile⟩ := encode_of_appendBatch hmiddle
      obtain ⟨written, hwrite, hsame, hcontent⟩ :=
        returns_writeAll (WalReclaimError.wal .io) h.same h.content encoded
      have hwrites : Writes temp before written middle := by
        rw [hfile]
        exact ⟨hsame, hcontent, h.policy⟩
      obtain ⟨after, hrest, hafter⟩ := ih hwrites hall
      have happend : (append temp log.lastSequence mutation).Returns state middle.lastSequence
          written :=
        returns_bind (returns_lift (mapError_ok_iff.mpr hencoded)) (returns_bind hwrite rfl)
      exact ⟨after, returns_bind happend hrest, hafter⟩
    · cases hall

theorem returns_reclaimWal (path : String) (before : Directory) {retained : List WalMutation}
    {next : Wal} (h : WriteService.reclaimedLog retained = .ok next) :
    ∃ after, (reclaimWal path retained).Returns before () after := by
  obtain ⟨removed, hremove, hremoved, hnone⟩ :=
    returns_removeIfExists WalReclaimError.io (tempPath path) before
  obtain ⟨opened, hopen, hopened⟩ := returns_openLog hremoved hnone
  obtain ⟨written, happend, hwrites⟩ := returns_appendAll hopened h
  obtain ⟨after, hinstall, -⟩ :=
    returns_install WalReclaimError.io path hwrites.same hwrites.content
  exact ⟨after, returns_bind rfl (returns_bind hremove (returns_bind hopen
    (returns_bind happend hinstall)))⟩

end Returns

/-! ### The step of the store -/

def returned {ε : Type} : Ending ε Unit → Bool
  | .ok _ => true
  | _ => false

variable {F : Type}

/-- The store whose log is the file. -/
def withLog (store : Store F) (log : Option Bytes) : Store F :=
  store.updateDir fun dir => { dir with wal := log }

section Replace

variable {retained : List WalMutation} {log : Wal} (store : Store F)

theorem replaceWal_done (h : WriteService.reclaimedLog retained = .ok log) :
    (WriteService.replaceWal retained).run store [] =
      (.ok (), ⟨withLog store (some log.file), []⟩) := by
  unfold WriteService.replaceWal
  rw [h]
  rfl

theorem replaceWal_failsAfter (h : WriteService.reclaimedLog retained = .ok log) :
    (WriteService.replaceWal retained).run store [.failsAfter] =
      (.error (.walReclaim .io), ⟨withLog store (some log.file), []⟩) := by
  unfold WriteService.replaceWal
  rw [h]
  rfl

theorem replaceWal_unchanged (retained : List WalMutation) :
    ∃ error world, (WriteService.replaceWal retained).run store [.failsBefore] =
      (.error error, world) ∧ world.state = store := by
  unfold WriteService.replaceWal
  cases WriteService.reclaimedLog retained with
  | error error => exact ⟨_, _, rfl, rfl⟩
  | ok log => exact ⟨_, _, rfl, rfl⟩

end Replace

/-- Under any faults the files are left as the one step of the store leaves its log under some
faults, and one returns as the other does. Without faults a log that can be encoded is replaced,
whatever file is left aside. -/
theorem reclaimWal_refines_replaceWal (path : String) (retained : List WalMutation)
    (directory : Directory) (store : Store F) :
    (∀ faults, ∃ schedule,
      let files := (reclaimWal path retained).run directory faults
      let step := (WriteService.replaceWal retained).run (withLog store directory[path]?) schedule
      step.2.state = withLog store files.2.state[path]? ∧ returned step.1 = returned files.1) ∧
    ((∃ after, (reclaimWal path retained).Returns directory () after) ↔
      ∃ after, (WriteService.replaceWal retained).Returns (withLog store directory[path]?) () after) := by
  constructor
  · intro faults
    have hfiles := reclaimWal_reclaims path retained directory faults
    generalize (reclaimWal path retained).run directory faults = files at hfiles ⊢
    obtain ⟨ending, ⟨after, rest⟩⟩ := files
    have hfailed (hending : returned ending = false)
        (h : after[path]? = directory[path]? ∨ Reclaimed path retained after) : ∃ schedule,
          let step := (WriteService.replaceWal retained).run (withLog store directory[path]?) schedule
          step.2.state = withLog store after[path]? ∧ returned step.1 = returned ending := by
      obtain hsame | ⟨log, hlog, hafter⟩ := h
      · obtain ⟨error, world, hrun, hstate⟩ :=
          replaceWal_unchanged (withLog store directory[path]?) retained
        refine ⟨[.failsBefore], ?_⟩
        dsimp only
        rw [hrun, hending, hsame]
        exact ⟨hstate, rfl⟩
      · refine ⟨[.failsAfter], ?_⟩
        dsimp only
        rw [replaceWal_failsAfter _ hlog, hending, hafter]
        exact ⟨rfl, rfl⟩
    cases ending with
    | ok value =>
      obtain ⟨log, hlog, hafter⟩ := hfiles
      refine ⟨[], ?_⟩
      dsimp only
      rw [replaceWal_done _ hlog]
      exact ⟨congrArg (withLog store) hafter.symm, rfl⟩
    | error error => exact hfailed rfl hfiles
    | crashed => exact hfailed rfl hfiles
  · constructor
    · rintro ⟨after, hreturns⟩
      have hfiles := reclaimWal_reclaims path retained directory []
      rw [hreturns] at hfiles
      obtain ⟨log, hlog, -⟩ := hfiles
      exact ⟨_, replaceWal_done _ hlog⟩
    · rintro ⟨after, hreturns⟩
      obtain ⟨log, hlog, -⟩ := ok_of_liftBind hreturns
      exact returns_reclaimWal path directory (mapError_ok_iff.mp hlog)

end WalReclaim

end Ketebe
