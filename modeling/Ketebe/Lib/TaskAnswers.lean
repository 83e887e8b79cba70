import Ketebe.Lib.SequentialTasks

/-!
Tasks that run alone to their end. What such a task answers composes like a
computation with errors as long as it only reads, and otherwise like one that also
carries the files along.
-/
namespace Ketebe.Lib.WholeFiles.Task

variable {File : Type} {Content Change : File → Type} {ε ε' α β : Type} [DecidableEq File]
  (apply : {file : File} → Change file → Content file → Content file)

def finish : Task Content Change ε α → ((file : File) → Content file) →
    ((file : File) → Content file) × Except ε α
  | done result, files => (files, result)
  | read file next, files => finish (next (files file)) files
  | persist file seen change next, files =>
      finish (next true) (Function.update files file (apply change seen))

/-- What the task answers when it runs alone. -/
def answer (files : (file : File) → Content file) (task : Task Content Change ε α) :
    Except ε α := (task.finish apply files).2

variable {apply} {files : (file : File) → Content file} {task : Task Content Change ε α}

theorem run_none : task.run apply none files =
    ((task.finish apply files).1, some (task.answer apply files)) := by
  unfold answer
  induction task generalizing files with
  | done result => rfl
  | read file next ih => exact ih (files file)
  | persist file seen change next ih => exact ih true

/-- What a task that is not stopped ends with holds of its files. -/
theorem finish_of_ends {stopped : ℕ → ((file : File) → Content file) → Prop}
    {post : ((file : File) → Content file) → Prop}
    (h : Ends apply stopped ⟨fun _ _ => post, fun _ _ => post⟩ task 0 files) :
    post (task.finish apply files).1 := by
  have hrun := h.run none
  rw [run_none] at hrun
  rcases hrun with ⟨made, hstop, -⟩ | ⟨made, ⟨value, -, hpost⟩ | ⟨error, -, hpost⟩⟩
  · cases hstop
  · exact hpost
  · exact hpost

theorem WritesOnly.finish {allowed : File → Prop} (h : task.WritesOnly allowed) {file : File}
    (hfile : ¬allowed file) : (task.finish apply files).1 file = files file := by
  induction task generalizing files with
  | done result => rfl
  | read other next ih => exact ih (files other) (h (files other))
  | persist other seen change next ih =>
    refine (ih true (h.2 true)).trans (Function.update_of_ne (fun hsame => hfile ?_) _ _)
    exact hsame ▸ h.1

theorem finish_bind (next : α → Task Content Change ε β) :
    (task >>= next).finish apply files = match task.finish apply files with
      | (files', .ok value) => (next value).finish apply files'
      | (files', .error error) => (files', .error error) := by
  show (task.bind next).finish apply files = _
  induction task generalizing files with
  | done result => cases result <;> rfl
  | read file step ih => exact ih (files file)
  | persist file seen change step ih => exact ih true

theorem finish_handle (handler : ε → Task Content Change ε' α) :
    (task.handle handler).finish apply files = match task.finish apply files with
      | (files', .ok value) => (files', .ok value)
      | (files', .error error) => (handler error).finish apply files' := by
  induction task generalizing files with
  | done result => cases result <;> rfl
  | read file step ih => exact ih (files file)
  | persist file seen change step ih => exact ih true

theorem ReadOnly.finish_files (h : task.ReadOnly) : (task.finish apply files).1 = files := by
  induction task with
  | done result => rfl
  | read file next ih => exact ih (files file) (h (files file))
  | persist file seen change next ih => exact h.elim

theorem ReadOnly.finish (h : task.ReadOnly) :
    task.finish apply files = (files, task.answer apply files) :=
  Prod.ext h.finish_files rfl

/-- A task that goes on after one that only reads, answers on the same files. -/
theorem ReadOnly.finish_bind (h : task.ReadOnly) (next : α → Task Content Change ε β) :
    (task >>= next).finish apply files = match task.answer apply files with
      | .ok value => (next value).finish apply files
      | .error error => (files, .error error) := by
  rw [Task.finish_bind, h.finish]
  cases task.answer apply files <;> rfl

theorem ReadOnly.answer_bind (h : task.ReadOnly) (next : α → Task Content Change ε β) :
    (task >>= next).answer apply files =
      task.answer apply files >>= fun value => (next value).answer apply files := by
  rw [answer, h.finish_bind]
  cases task.answer apply files <;> rfl

theorem answer_mapError (f : ε → ε') :
    (task.mapError f).answer apply files = (task.answer apply files).mapError f := by
  rw [answer, mapError, finish_handle, answer]
  rcases task.finish apply files with ⟨files', value | error⟩ <;> rfl

theorem finish_lift_bind (plan : Except ε α) (next : α → Task Content Change ε β) :
    (lift plan >>= next).finish apply files = match plan with
      | .ok value => (next value).finish apply files
      | .error error => (files, .error error) := by
  cases plan <;> rfl

end Ketebe.Lib.WholeFiles.Task
