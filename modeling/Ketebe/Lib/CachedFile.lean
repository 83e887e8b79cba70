import Ketebe.Lib.Durable

/-!
Files that are kept in memory and written whole. A write goes to a temporary file
which then takes the place of the file, so that the file changes at once or not at
all. What is in memory may be ahead of the file.
-/
namespace Ketebe.Lib.CachedFile

open Durable Durable.Program

/-- A file and its temporary file, which is empty until it is written. -/
structure Volume (σ : Type) where
  file : Option σ
  temporary : Option (Option σ)

section Replacing

variable {σ ε : Type} (error : ε) (content : σ)

/-- Creates the directory, writes the temporary file, sets its permissions and renames it. -/
def replaceFile : Program (Volume σ) ε Unit := do
  attempt error
  durable error fun volume => { volume with temporary := some none }
  durable error fun volume => { volume with temporary := some (some content) }
  attempt error
  durableAtomic error fun volume => ⟨volume.temporary.join.or volume.file, none⟩

/-- The file after one step that replaces it. -/
def replacedAtOnce : Program (Volume σ) ε Unit :=
  durableAtomic error fun volume => { volume with file := some content }

/-- However the steps fail, the process and the file end as if there were only one step. -/
theorem replaceFile_atOnce (volume : Volume σ) (faults : List Fault) :
    ∃ fault, ((replaceFile error content).run volume faults).1 =
        ((replacedAtOnce error content).run volume [fault]).1 ∧
      ((replaceFile error content).run volume faults).2.state.file =
        ((replacedAtOnce error content).run volume [fault]).2.state.file := by
  have hrefines : (replaceFile error content).Ensures ⟨fun _ after => after.file = some content,
      fun failure after => failure = error ∧ after.file = volume.file,
      fun after => after.file = volume.file ∨ after.file = some content⟩ volume := by
    apply ensures_bind
    refine ensures_attempt ?_ ⟨rfl, rfl⟩ (.inl rfl)
    apply ensures_bind
    refine ensures_durable ?_ ⟨rfl, rfl⟩ ⟨rfl, rfl⟩ (.inl rfl) (.inl rfl)
    apply ensures_bind
    refine ensures_durable ?_ ⟨rfl, rfl⟩ ⟨rfl, rfl⟩ (.inl rfl) (.inl rfl)
    apply ensures_bind
    refine ensures_attempt ?_ ⟨rfl, rfl⟩ (.inl rfl)
    exact ensures_durableAtomic rfl ⟨rfl, rfl⟩ (.inl rfl) (.inr rfl)
  have hpost := hrefines faults
  generalize (replaceFile error content).run volume faults = ending at hpost ⊢
  obtain ⟨_ | failure | _, after⟩ := ending
  · exact ⟨.none, rfl, hpost⟩
  · obtain ⟨rfl, hfile⟩ := hpost
    exact ⟨.failsBefore, rfl, hfile⟩
  · rcases hpost with hfile | hfile
    · exact ⟨.crashesBefore, rfl, hfile⟩
    · exact ⟨.crashesAfter, rfl, hfile⟩

end Replacing

/-! ### Errors that leave the state as it was -/

/-- If the program ended in an error, it left the original state. -/
def Keeps {σ ε α : Type} (original : σ) : Ending ε α × World σ → Prop
  | (.error _, world) => world.state = original
  | (.ok _, _) | (.crashed, _) => True

def KeepsOnError {σ ε α : Type} (original : σ) (program : Program σ ε α) (state : σ)
    (faults : List Fault) : Prop := Keeps original (program.run state faults)

section KeepsOnError

variable {σ τ ε ε' α β : Type} {original state : σ} {faults : List Fault}
  {program : Program σ ε α}

theorem keepsOnError_pure {value : α} :
    KeepsOnError original (pure value : Program σ ε α) state faults := trivial

theorem keepsOnError_throw_iff {error : ε} :
    KeepsOnError original (throw error : Program σ ε α) state faults ↔ state = original := Iff.rfl

theorem keepsOnError_get_iff {next : σ → Program σ ε α} :
    KeepsOnError original (get >>= next) state faults ↔
      KeepsOnError original (next state) state faults := Iff.rfl

theorem keepsOnError_modify_iff {update : σ → σ} {next : Unit → Program σ ε α} :
    KeepsOnError original (modify update >>= next) state faults ↔
      KeepsOnError original (next ()) (update state) faults := Iff.rfl

theorem keepsOnError_ok_iff {value : β} {next : β → Program σ ε α} :
    KeepsOnError original (lift (.ok value) >>= next) state faults ↔
      KeepsOnError original (next value) state faults := Iff.rfl

theorem keepsOnError_lift_iff {plan : Except ε β} {next : β → Program σ ε α} :
    KeepsOnError original (lift plan >>= next) state faults ↔
      (∀ error, plan = .error error → state = original) ∧
        ∀ value, plan = .ok value → KeepsOnError original (next value) state faults := by
  cases plan with
  | error error =>
    have hthrow : KeepsOnError original (lift (.error error) >>= next) state faults ↔
        state = original := @keepsOnError_throw_iff _ _ _ _ _ _ error
    rw [hthrow]
    simp
  | ok value =>
    rw [keepsOnError_ok_iff]
    simp

/-- What a program answers after it succeeded does not matter. -/
theorem keepsOnError_map_iff {answer : α → β} :
    KeepsOnError original (program >>= fun value => (pure (answer value) : Program σ ε β)) state
      faults ↔ KeepsOnError original program state faults := by
  show Keeps original (continueWith (fun value => pure (answer value)) (program.run state faults)) ↔
    Keeps original (program.run state faults)
  rcases program.run state faults with ⟨value | error | _, world⟩ <;> rfl

theorem keepsOnError_mapError_iff {f : ε → ε'} :
    KeepsOnError original (program.mapError f) state faults ↔
      KeepsOnError original program state faults := by
  have hrun : (program.mapError f).run state faults = match program.run state faults with
      | (.ok value, world) => (.ok value, world)
      | (.error error, world) => (.error (f error), world)
      | (.crashed, world) => (.crashed, world) := rfl
  rw [KeepsOnError, KeepsOnError, hrun]
  rcases program.run state faults with ⟨value | error | _, world⟩ <;> rfl

/-- Working on a part keeps the whole exactly when it keeps the part. -/
theorem keepsOnError_onPart_iff {view : σ → τ} {update : τ → σ → σ} {part : Program τ ε α}
    (hview : ∀ t s, view (update t s) = t) (hupdate : ∀ s, update (view s) s = s) :
    KeepsOnError state (part.onPart view update) state faults ↔
      KeepsOnError (view state) part (view state) faults := by
  have hrun : (part.onPart view update).run state faults =
      match part.run (view state) faults with
      | (ending, world) => (ending, ⟨update world.state state, world.faults⟩) := rfl
  rw [KeepsOnError, KeepsOnError, hrun]
  rcases part.run (view state) faults with ⟨value | error | _, world⟩
  · exact Iff.rfl
  · show update world.state state = state ↔ world.state = view state
    constructor
    · intro hkept
      rw [← hview world.state state, hkept]
    · intro hkept
      rw [hkept, hupdate]
  · exact Iff.rfl

end KeepsOnError

/-- Without faults, the program ends as `ok` says or in an error that leaves the state. -/
@[irreducible]
def Settles {σ ε α : Type} (program : Program σ ε α) (state : σ) (ok : α → σ → Prop) : Prop :=
  match program.run state [] with
  | (.ok value, world) => ok value world.state
  | (.error _, world) | (.crashed, world) => world.state = state

section Settles

variable {σ ε α β : Type} {state : σ} {program : Program σ ε α}

theorem settles_throw {error : ε} {ok : α → σ → Prop} :
    Settles (throw error : Program σ ε α) state ok := by
  unfold Settles
  rfl

theorem settles_check {plan : Except ε β} {next : β → Program σ ε α} {ok : α → σ → Prop}
    (h : ∀ value, plan = .ok value → Settles (next value) state ok) :
    Settles (lift plan >>= next) state ok := by
  cases plan with
  | error error => exact settles_throw
  | ok value => exact h value rfl

theorem settles_get {next : σ → Program σ ε α} {ok : α → σ → Prop}
    (h : Settles (next state) state ok) : Settles (get >>= next) state ok := by
  unfold Settles at h ⊢
  exact h

theorem settles_map {answer : α → β} {ok : β → σ → Prop}
    (h : Settles program state fun value => ok (answer value)) :
    Settles (program >>= fun value => (pure (answer value) : Program σ ε β)) state ok := by
  unfold Settles at h ⊢
  show match continueWith _ (program.run state []) with
    | (.ok value, world) => ok value world.state
    | (.error _, world) | (.crashed, world) => world.state = state
  rcases hrun : program.run state [] with ⟨value | error | _, world⟩ <;> rw [hrun] at h <;> exact h

end Settles

/-- What a process keeps in memory of a file, and the file. -/
structure Cached (σ : Type) where
  memory : σ
  disk : Option σ

namespace Cached

variable {σ ε : Type}

/-- Replaces the file by what is in memory. -/
def persist (error : ε) : Program (Cached σ) ε Unit :=
  durableAtomic error fun store => { store with disk := some store.memory }

/-- Changes what is in memory and then writes it. -/
def commit (error : ε) (change : σ → σ) : Program (Cached σ) ε Unit := do
  modify fun store => { store with memory := change store.memory }
  persist error

/-- Writes new content and only then keeps it in memory. -/
def replace (error : ε) (content : σ) : Program (Cached σ) ε Unit := do
  durableAtomic error fun store => { store with disk := some content }
  modify fun store => { store with memory := content }

/-- A process that starts has the content of the file in memory, or a default. -/
def reopen (fallback : σ) (disk : Option σ) : Cached σ := ⟨disk.getD fallback, disk⟩

/-- The next write fails. -/
def failing (faults : List Fault) : Bool :=
  faults.headD .none = .failsBefore ∨ faults.headD .none = .failsAfter

/-- A change stays in memory also when it could not be written. -/
theorem commit_run (error : ε) (change : σ → σ) (store : Cached σ) (faults : List Fault) :
    (commit error change).run store faults = match faults.headD .none with
      | .none => (.ok (), ⟨⟨change store.memory, some (change store.memory)⟩, faults.tail⟩)
      | .failsBefore | .failsAfter =>
          (.error error, ⟨⟨change store.memory, store.disk⟩, faults.tail⟩)
      | .crashesBefore => (.crashed, ⟨⟨change store.memory, store.disk⟩, faults.tail⟩)
      | .crashesAfter =>
          (.crashed, ⟨⟨change store.memory, some (change store.memory)⟩, faults.tail⟩) := by
  show (persist error).run _ faults = _
  unfold persist run durableAtomic
  cases faults.headD .none <;> rfl

/-- A change that fails is kept exactly when its write fails and it changes something. -/
theorem keepsOnError_commit_iff {error : ε} {change : σ → σ} {store : Cached σ}
    {faults : List Fault} : KeepsOnError store (commit error change) store faults ↔
      ¬(change store.memory ≠ store.memory ∧ failing faults) := by
  have hmemory : (⟨change store.memory, store.disk⟩ : Cached σ) = store ↔
      change store.memory = store.memory := by
    constructor
    · intro hsame
      exact congrArg memory hsame
    · intro hsame
      rw [hsame]
  rw [KeepsOnError, commit_run, failing]
  cases faults.headD .none with
  | none | crashesBefore | crashesAfter => simp [Keeps]
  | failsBefore | failsAfter => simp [Keeps, hmemory]

/-- The store after a change, whatever becomes of its write. -/
theorem ensures_commit {error : ε} {change : σ → σ} {store : Cached σ} {post : Post (Cached σ) ε Unit}
    (hok : post.ok () ⟨change store.memory, some (change store.memory)⟩)
    (herror : post.error error ⟨change store.memory, store.disk⟩)
    (hcrashed : post.crashed ⟨change store.memory, store.disk⟩)
    (hcrashed' : post.crashed ⟨change store.memory, some (change store.memory)⟩) :
    (commit error change).Ensures post store :=
  ensures_bind (ensures_modify (ensures_durableAtomic hok herror hcrashed hcrashed'))

/-- Content that could not be written is not in memory either. -/
theorem replace_run (error : ε) (content : σ) (store : Cached σ) (faults : List Fault) :
    (replace error content).run store faults = match faults.headD .none with
      | .none => (.ok (), ⟨⟨content, some content⟩, faults.tail⟩)
      | .failsBefore | .failsAfter => (.error error, ⟨store, faults.tail⟩)
      | .crashesBefore => (.crashed, ⟨store, faults.tail⟩)
      | .crashesAfter => (.crashed, ⟨⟨store.memory, some content⟩, faults.tail⟩) := by
  show continueWith _ ((durableAtomic error _).run store faults) = _
  unfold run durableAtomic
  cases faults.headD .none <;> rfl

end Cached

end Ketebe.Lib.CachedFile
