import Ketebe.Lib.Runs
import Ketebe.StoreProgress

/-!
Runs of one collection. Clients write, seal and compact, the process crashes
and the server recovers, each under its own schedule of faults. A session
remembers the numbered batch of every write and whether it was acknowledged.
-/
namespace Ketebe

open Lib.Durable

structure Call where
  mutations : List WalMutation
  acknowledged : Bool

structure Session (F : Type) where
  store : Store F
  calls : List Call

namespace Session

open StoreStep

inductive Event where
  | upsertBatch (records : List PendingRecord) (faults : List Fault)
  | delete (recordId : RecordId) (faults : List Fault)
  | sealCollection (faults : List Fault)
  | compactCollection (faults : List Fault)
  /-- The process stops, if it still runs, and the server recovers. -/
  | restart (faults : List Fault)

variable {F : Type} [DecidableEq F] (S : Type) [ScoreArith S] (state : AppState F)

/-- The store after an operation; a crash takes the runtime with it. -/
def settle {ε α : Type} : Ending ε α × World (Store F) → Store F
  | (.ok _, world) => world.state
  | (.error _, world) => world.state
  | (.crashed, world) => world.state.down

def isOk {ε α : Type} : Ending ε α × World (Store F) → Bool
  | (.ok _, _) => true
  | (.error _, _) => false
  | (.crashed, _) => false

def step (session : Session F) : Event → Session F
  | .upsertBatch records faults =>
      let result := (WriteService.upsertBatch state S records).run session.store faults
      ⟨settle result,
        session.calls ++ [⟨numberedUpsert state session.store records, isOk result⟩]⟩
  | .delete recordId faults =>
      let result := (WriteService.delete state S recordId).run session.store faults
      ⟨settle result,
        session.calls ++ [⟨numberedDelete state session.store recordId, isOk result⟩]⟩
  | .sealCollection faults =>
      ⟨settle ((WriteService.sealCollection state S).run session.store faults), session.calls⟩
  | .compactCollection faults =>
      ⟨settle ((WriteService.compactCollection state S).run session.store faults), session.calls⟩
  | .restart faults =>
      ⟨settle ((AppState.recover S state).run session.store.down faults), session.calls⟩

/-- A session on a collection that has just been created. -/
def created (config : CollectionConfig) : Session F := ⟨.created state config, []⟩

/-- What the calls may have left in the log: a batch is there as a whole or not
at all, and it is there if it was acknowledged. -/
inductive Logged : List Call → List WalMutation → Prop
  | nil : Logged [] []
  | kept {calls : List Call} {logged : List WalMutation} (h : Logged calls logged) (call : Call) :
      Logged (calls ++ [call]) (logged ++ call.mutations)
  | lost {calls : List Call} {logged : List WalMutation} (h : Logged calls logged) (call : Call)
      (hlost : call.acknowledged = false) : Logged (calls ++ [call]) logged

variable {S state} {ε α : Type} {start : Store F} {mutations : List WalMutation}

theorem reached_settle {allowed : List WalMutation → Prop} {result : Ending ε α × World (Store F)}
    (h : (progress S state start allowed fun _ next => Reached S state start allowed next).holds
      result) : Reached S state start allowed (settle result) := by
  obtain ⟨value | error | _, world⟩ := result
  · exact h
  · exact h
  · exact h

/-- An operation that logs nothing moves the store by steps. -/
theorem steps_settle {result : Ending ε α × World (Store F)}
    (h : (progress S state start (· = []) fun _ next => Reached S state start (· = []) next).holds
      result) : Steps S state start [] (settle result) := by
  obtain ⟨logged, rfl, hsteps⟩ := reached_settle h
  exact hsteps

/-- A write logs its batch or nothing, and its batch when it is acknowledged. -/
theorem logged_settle {calls : List Call} {logged : List WalMutation}
    {result : Ending ε α × World (Store F)} (hlogged : Logged calls logged)
    (h : (progress S state start (Offered mutations) fun _ next =>
      Reached S state start (· = mutations) next).holds result) :
    ∃ added, Steps S state start added (settle result) ∧
      Logged (calls ++ [⟨mutations, isOk result⟩]) (logged ++ added) := by
  have hoffered {store : Store F} (hreached : Reached S state start (Offered mutations) store)
      (hstore : settle result = store) (hfailed : isOk result = false) :
      ∃ added, Steps S state start added (settle result) ∧
        Logged (calls ++ [⟨mutations, isOk result⟩]) (logged ++ added) := by
    subst hstore
    obtain ⟨added, hadded | hadded, hsteps⟩ := hreached
    · subst hadded
      refine ⟨[], hsteps, ?_⟩
      rw [List.append_nil]
      exact hlogged.lost _ hfailed
    · subst hadded
      exact ⟨added, hsteps, hlogged.kept ⟨added, isOk result⟩⟩
  obtain ⟨value | error | _, world⟩ := result
  · obtain ⟨added, rfl, hsteps⟩ := h
    exact ⟨added, hsteps, hlogged.kept ⟨added, true⟩⟩
  · exact hoffered h rfl rfl
  · exact hoffered h rfl rfl

/-- One event moves the store by steps that log what the calls may have left. -/
theorem step_steps {session : Session F} {logged : List WalMutation}
    (hlogged : Logged session.calls logged) (event : Event) :
    ∃ added, Logged (step S state session event).calls (logged ++ added) ∧
      Steps S state session.store added (step S state session event).store := by
  have hquiet : Logged session.calls (logged ++ []) := by rwa [List.append_nil]
  have hstart : Reached S state session.store (· = []) session.store :=
    ⟨[], rfl, .refl session.store⟩
  cases event with
  | upsertBatch records faults =>
    have hwrite : (WriteService.upsertBatch state S records).Ensures _ session.store :=
      ensures_upsertBatch records
    obtain ⟨added, hsteps, hadded⟩ := logged_settle hlogged (hwrite faults)
    exact ⟨added, hadded, hsteps⟩
  | delete recordId faults =>
    have hwrite : (WriteService.delete state S recordId).Ensures _ session.store :=
      ensures_delete recordId
    obtain ⟨added, hsteps, hadded⟩ := logged_settle hlogged (hwrite faults)
    exact ⟨added, hadded, hsteps⟩
  | sealCollection faults =>
    exact ⟨[], hquiet,
      steps_settle (ensures_sealCollection hstart (fun _ _ hnext _ => hnext) faults)⟩
  | compactCollection faults =>
    exact ⟨[], hquiet,
      steps_settle (ensures_compactCollection hstart (fun _ _ hnext => hnext) faults)⟩
  | restart faults =>
    have hrecover : (AppState.recover S state).Ensures (progress S state session.store (· = [])
        fun _ next => Reached S state session.store (· = []) next) session.store.down :=
      (ensures_recover hstart.down).mono (fun _ _ hnext => hnext.1) (fun _ _ hnext => hnext)
        fun _ hnext => hnext
    exact ⟨[], hquiet, steps_settle (hrecover faults)⟩

end Session

end Ketebe
