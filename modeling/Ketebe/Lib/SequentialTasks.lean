import Ketebe.Lib.WholeFiles

/-!
Tasks that run one after another. A task runs alone until it is done, or it stops
right before one of its writes; what it wrote until then remains.
-/
namespace Ketebe.Lib.WholeFiles.Task

variable {File : Type} {Content Change : File → Type} {ε ε' α β : Type}

/-- The task writes only the files that are allowed. -/
def WritesOnly (allowed : File → Prop) : Task Content Change ε α → Prop
  | done _ => True
  | read _ next => ∀ content, WritesOnly allowed (next content)
  | persist file _ _ next => allowed file ∧ ∀ succeeded, WritesOnly allowed (next succeeded)

section WritesOnly

variable {task : Task Content Change ε α} {allowed : File → Prop}

theorem ReadOnly.writesOnly (h : task.ReadOnly) : task.WritesOnly allowed := by
  induction task with
  | done result => trivial
  | read file next ih => exact fun content => ih content (h content)
  | persist file seen change next ih => exact h.elim

theorem WritesOnly.bind {next : α → Task Content Change ε β} (h : task.WritesOnly allowed)
    (hnext : ∀ value, (next value).WritesOnly allowed) : (task >>= next).WritesOnly allowed := by
  show (task.bind next).WritesOnly allowed
  induction task with
  | done result =>
    cases result with
    | ok value => exact hnext value
    | error error => trivial
  | read file step ih => exact fun content => ih content (h content)
  | persist file seen change step ih => exact ⟨h.1, fun succeeded => ih succeeded (h.2 succeeded)⟩

theorem WritesOnly.handle {handler : ε → Task Content Change ε' α} (h : task.WritesOnly allowed)
    (hhandler : ∀ error, (handler error).WritesOnly allowed) :
    (task.handle handler).WritesOnly allowed := by
  induction task with
  | done result =>
    cases result with
    | ok value => trivial
    | error error => exact hhandler error
  | read file step ih => exact fun content => ih content (h content)
  | persist file seen change step ih => exact ⟨h.1, fun succeeded => ih succeeded (h.2 succeeded)⟩

theorem WritesOnly.mapError {f : ε → ε'} (h : task.WritesOnly allowed) :
    (task.mapError f).WritesOnly allowed :=
  h.handle fun _ => trivial

end WritesOnly

/-! ### Runs -/

variable [DecidableEq File] (apply : {file : File} → Change file → Content file → Content file)

/-- Runs the task on the files. With `some n` it makes only its first `n` writes,
and has no result when it would make more. -/
def run : Task Content Change ε α → Option ℕ → ((file : File) → Content file) →
    ((file : File) → Content file) × Option (Except ε α)
  | done result, _, files => (files, some result)
  | read file next, stop, files => run (next (files file)) stop files
  | persist _ _ _ _, some 0, files => (files, none)
  | persist file seen change next, stop, files =>
      run (next true) (stop.map (· - 1)) (Function.update files file (apply change seen))

/-- How a task that was not stopped ends: its result, the number of its writes and
the files. -/
structure Ending (Content : File → Type) (ε α : Type) where
  ok : α → ℕ → ((file : File) → Content file) → Prop
  error : ε → ℕ → ((file : File) → Content file) → Prop

/-- Before each write the files are as `stopped` says of the writes made so far,
and the task ends as `ending` says. -/
def Ends (stopped : ℕ → ((file : File) → Content file) → Prop) (ending : Ending Content ε α) :
    Task Content Change ε α → ℕ → ((file : File) → Content file) → Prop
  | done (.ok value), count, files => ending.ok value count files
  | done (.error error), count, files => ending.error error count files
  | read file next, count, files => Ends stopped ending (next (files file)) count files
  | persist file seen change next, count, files => stopped count files ∧
      Ends stopped ending (next true) (count + 1)
        (Function.update files file (apply change seen))

section Rules

variable {apply} {stopped : ℕ → ((file : File) → Content file) → Prop}
  {task : Task Content Change ε α} {count : ℕ} {files : (file : File) → Content file}

/-- A task stops as `stopped` says or ends as `ending` says. -/
theorem Ends.run {ending : Ending Content ε α} (h : Ends apply stopped ending task count files)
    (stop : Option ℕ) :
    (∃ made, stop = some made ∧ stopped (count + made) (task.run apply stop files).1) ∨
      ∃ made, (∃ value, (task.run apply stop files).2 = some (.ok value) ∧
        ending.ok value made (task.run apply stop files).1) ∨
        ∃ error, (task.run apply stop files).2 = some (.error error) ∧
          ending.error error made (task.run apply stop files).1 := by
  induction task generalizing stop count files with
  | done result =>
    cases result with
    | ok value => exact .inr ⟨count, .inl ⟨value, rfl, h⟩⟩
    | error error => exact .inr ⟨count, .inr ⟨error, rfl, h⟩⟩
  | read file next ih => exact ih (files file) h stop
  | persist file seen change next ih =>
    rcases stop with _ | _ | made
    · rcases ih true h.2 none with ⟨made, hstop, -⟩ | hend
      · cases hstop
      · exact .inr hend
    · exact .inl ⟨0, rfl, h.1⟩
    · rcases ih true h.2 (some made) with ⟨_, hstop, hstopped⟩ | hend
      · cases hstop
        refine .inl ⟨made + 1, rfl, ?_⟩
        rwa [Nat.add_right_comm, Nat.add_assoc] at hstopped
      · exact .inr hend

theorem Ends.mono {stopped' : ℕ → ((file : File) → Content file) → Prop}
    {ending ending' : Ending Content ε α} (h : Ends apply stopped ending task count files)
    (hstopped : ∀ made files', stopped made files' → stopped' made files')
    (hok : ∀ value made files', ending.ok value made files' → ending'.ok value made files')
    (herror : ∀ error made files', ending.error error made files' →
      ending'.error error made files') : Ends apply stopped' ending' task count files := by
  induction task generalizing count files with
  | done result =>
    cases result with
    | ok value => exact hok value count files h
    | error error => exact herror error count files h
  | read file next ih => exact ih (files file) h
  | persist file seen change next ih => exact ⟨hstopped count files h.1, ih true h.2⟩

theorem ends_bind {ending : Ending Content ε β} {next : α → Task Content Change ε β}
    (h : Ends apply stopped ⟨fun value made files' =>
      Ends apply stopped ending (next value) made files', ending.error⟩ task count files) :
    Ends apply stopped ending (task >>= next) count files := by
  show Ends apply stopped ending (task.bind next) count files
  induction task generalizing count files with
  | done result =>
    cases result with
    | ok value => exact h
    | error error => exact h
  | read file step ih => exact ih (files file) h
  | persist file seen change step ih => exact ⟨h.1, ih true h.2⟩

theorem ends_handle {ending : Ending Content ε' α} {handler : ε → Task Content Change ε' α}
    (h : Ends apply stopped ⟨ending.ok, fun error made files' =>
      Ends apply stopped ending (handler error) made files'⟩ task count files) :
    Ends apply stopped ending (task.handle handler) count files := by
  induction task generalizing count files with
  | done result =>
    cases result with
    | ok value => exact h
    | error error => exact h
  | read file step ih => exact ih (files file) h
  | persist file seen change step ih => exact ⟨h.1, ih true h.2⟩

theorem ends_mapError {ending : Ending Content ε' α} {f : ε → ε'}
    (h : Ends apply stopped ⟨ending.ok, fun error => ending.error (f error)⟩ task count files) :
    Ends apply stopped ending (task.mapError f) count files :=
  ends_handle h

theorem ends_lift {ending : Ending Content ε α} {result : Except ε α}
    (hok : ∀ value, result = .ok value → ending.ok value count files)
    (herror : ∀ error, result = .error error → ending.error error count files) :
    Ends apply stopped ending (lift result : Task Content Change ε α) count files := by
  cases result with
  | ok value => exact hok value rfl
  | error error => exact herror error rfl

/-- A task that only reads ends with the files as they were. -/
theorem ReadOnly.ends {ending : Ending Content ε α} (h : task.ReadOnly)
    (hok : ∀ value, ending.ok value count files) (herror : ∀ error, ending.error error count files) :
    Ends apply stopped ending task count files := by
  induction task with
  | done result =>
    cases result with
    | ok value => exact hok value
    | error error => exact herror error
  | read file next ih => exact ih (files file) (h (files file))
  | persist file seen change next ih => exact h.elim

/-- What holds as long as the other files stay the same holds all along. -/
theorem WritesOnly.ends {allowed : File → Prop} {good : ((file : File) → Content file) → Prop}
    (h : task.WritesOnly allowed)
    (hgood : ∀ files' : (file : File) → Content file,
      (∀ file, ¬allowed file → files' file = files file) → good files') :
    Ends apply (fun _ => good) ⟨fun _ _ => good, fun _ _ => good⟩ task count files := by
  induction task generalizing count files with
  | done result =>
    have hnow := hgood files fun _ _ => rfl
    cases result with
    | ok value => exact hnow
    | error error => exact hnow
  | read file next ih => exact ih (files file) (h (files file)) hgood
  | persist file seen change next ih =>
    refine ⟨hgood files fun _ _ => rfl, ih true (h.2 true) fun files' hsame => ?_⟩
    apply hgood
    intro other hother
    have hne : other ≠ file := fun heq => hother (heq ▸ h.1)
    rw [hsame other hother, Function.update_of_ne hne]

end Rules

end Ketebe.Lib.WholeFiles.Task
