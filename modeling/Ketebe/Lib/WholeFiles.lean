import Ketebe.Lib.Runs
import Mathlib.Data.Nat.Notation
import Mathlib.Logic.Function.Basic

/-!
Concurrent tasks over files that are replaced whole. A task reads a file once and
later writes its own copy with a change, over whatever the file holds by then.
No change is lost in runs in which every write meets the file as it was read.
-/
namespace Ketebe.Lib.WholeFiles

/-- How a write ends. It may also fail after the file was replaced. -/
inductive Outcome where
  | written
  | failsBefore
  | failsAfter
  deriving DecidableEq, Repr

/-- A task that reads and replaces files, one atomic step at a time. -/
inductive Task {File : Type} (Content Change : File → Type) (ε α : Type) where
  | done (result : Except ε α)
  | read (file : File) (next : Content file → Task Content Change ε α)
  | persist (file : File) (seen : Content file) (change : Change file)
      (next : Bool → Task Content Change ε α)

namespace Task

variable {File : Type} {Content Change : File → Type} {ε ε' α β : Type}

def bind (f : α → Task Content Change ε β) : Task Content Change ε α → Task Content Change ε β
  | done (.ok value) => f value
  | done (.error error) => done (.error error)
  | read file next => read file fun content => bind f (next content)
  | persist file seen change next => persist file seen change fun succeeded =>
      bind f (next succeeded)

instance : Monad (Task Content Change ε) where
  pure value := done (.ok value)
  bind task f := bind f task

def throw (error : ε) : Task Content Change ε α := done (.error error)

def lift (result : Except ε α) : Task Content Change ε α := done result

/-- Goes on with the handler when the task ends in an error. -/
def handle (handler : ε → Task Content Change ε' α) :
    Task Content Change ε α → Task Content Change ε' α
  | done (.ok value) => done (.ok value)
  | done (.error error) => handler error
  | read file next => read file fun content => handle handler (next content)
  | persist file seen change next => persist file seen change fun succeeded =>
      handle handler (next succeeded)

def mapError (f : ε → ε') (task : Task Content Change ε α) : Task Content Change ε' α :=
  task.handle fun error => throw (f error)

/-- The task writes no file. -/
def ReadOnly : Task Content Change ε α → Prop
  | done _ => True
  | read _ next => ∀ content, ReadOnly (next content)
  | persist .. => False

theorem readOnly_pure {value : α} : (pure value : Task Content Change ε α).ReadOnly := trivial

theorem readOnly_throw {error : ε} : (throw error : Task Content Change ε α).ReadOnly := trivial

theorem readOnly_lift (result : Except ε α) : (lift result : Task Content Change ε α).ReadOnly :=
  trivial

theorem ReadOnly.bind {task : Task Content Change ε α} {next : α → Task Content Change ε β}
    (h : task.ReadOnly) (hnext : ∀ value, (next value).ReadOnly) : (task >>= next).ReadOnly := by
  show (task.bind next).ReadOnly
  induction task with
  | done result =>
    cases result with
    | ok value => exact hnext value
    | error error => trivial
  | read file step ih => exact fun content => ih content (h content)
  | persist file seen change step ih => exact h.elim

theorem ReadOnly.handle {task : Task Content Change ε α} {handler : ε → Task Content Change ε' α}
    (h : task.ReadOnly) (hhandler : ∀ error, (handler error).ReadOnly) :
    (task.handle handler).ReadOnly := by
  induction task with
  | done result =>
    cases result with
    | ok value => trivial
    | error error => exact hhandler error
  | read file step ih => exact fun content => ih content (h content)
  | persist file seen change step ih => exact h.elim

theorem ReadOnly.mapError {task : Task Content Change ε α} {f : ε → ε'} (h : task.ReadOnly) :
    (task.mapError f).ReadOnly :=
  h.handle fun _ => readOnly_throw

end Task

/-! ### Pools of tasks -/

/-- The items that a task has set, with their values. -/
abbrev Held (Item Value : Type) := Item → Option Value

/-- A call in progress. Its task returns the items that it acknowledges. -/
structure Running {File : Type} (Content Change : File → Type) (Item Value ε : Type) where
  started : ℕ
  task : Task Content Change ε (List (Item × Value))
  held : Held Item Value

structure Acknowledged (Item Value : Type) where
  ended : ℕ
  effects : List (Item × Value)

/-- A write that took effect, with the time its call started. -/
structure Write (Item Value : Type) where
  started : ℕ
  sets : Item → Option Value

structure Pool {File : Type} (Content Change : File → Type) (Item Value ε : Type) where
  files : (file : File) → Content file
  now : ℕ
  running : List (Running Content Change Item Value ε)
  acknowledged : List (Acknowledged Item Value)
  writes : List (Write Item Value)

inductive Event (Job : Type) where
  | start (job : Job)
  | advance (index : ℕ) (outcome : Outcome)
  | stop

/-- What a change does to the content of its file, and to the items that the
files hold. -/
structure Layout {File : Type} [DecidableEq File] (Content Change : File → Type)
    (Item Value : Type) where
  apply : {file : File} → Change file → Content file → Content file
  value : ((file : File) → Content file) → Item → Value
  sets : {file : File} → Change file → Item → Option Value
  value_apply : ∀ (files : (file : File) → Content file) (file : File) (change : Change file)
    (item : Item), value (Function.update files file (apply change (files file))) item =
      (sets change item).getD (value files item)

namespace Layout

variable {File : Type} [DecidableEq File] {Content Change : File → Type} {Item Value : Type}
  (layout : Layout Content Change Item Value)

def afterWrite {file : File} (change : Change file) (held : Held Item Value) : Held Item Value :=
  fun item => (layout.sets change item).or (held item)

/-! ### What a task ensures -/

structure Post (Item Value ε α : Type) where
  ok : α → Held Item Value → Prop
  error : ε → Held Item Value → Prop

/-- Every write keeps the files sound when it meets its file as it was read, and
the task ends as `post` says of the items that it has set. A failed write may
have set nothing. -/
def Ensures {ε α : Type} (sound : ((file : File) → Content file) → Prop)
    (post : Post Item Value ε α) : Task Content Change ε α → Held Item Value → Prop
  | .done (.ok value), held => post.ok value held
  | .done (.error error), held => post.error error held
  | .read _ next, held => ∀ content, Ensures sound post (next content) held
  | .persist file seen change next, held =>
      (∀ files, files file = seen → sound files →
        sound (Function.update files file (layout.apply change seen))) ∧
      Ensures sound post (next true) (layout.afterWrite change held) ∧
        Ensures sound post (next false) fun _ => none

section Rules

variable {ε ε' α β : Type} {sound : ((file : File) → Content file) → Prop} {layout}
  {task : Task Content Change ε α} {held : Held Item Value}

theorem Ensures.mono {post post' : Post Item Value ε α} (h : layout.Ensures sound post task held)
    (hok : ∀ value held, post.ok value held → post'.ok value held)
    (herror : ∀ error held, post.error error held → post'.error error held) :
    layout.Ensures sound post' task held := by
  induction task generalizing held with
  | done result =>
    cases result with
    | ok value => exact hok value held h
    | error error => exact herror error held h
  | read file next ih => exact fun content => ih content (h content)
  | persist file seen change next ih => exact ⟨h.1, ih true h.2.1, ih false h.2.2⟩

theorem ensures_pure {post : Post Item Value ε α} {value : α} (h : post.ok value held) :
    layout.Ensures sound post (pure value : Task Content Change ε α) held := h

theorem ensures_throw {post : Post Item Value ε α} {error : ε} (h : post.error error held) :
    layout.Ensures sound post (Task.throw error : Task Content Change ε α) held := h

theorem ensures_lift {post : Post Item Value ε α} {result : Except ε α}
    (hok : ∀ value, result = .ok value → post.ok value held)
    (herror : ∀ error, result = .error error → post.error error held) :
    layout.Ensures sound post (Task.lift result : Task Content Change ε α) held := by
  cases result with
  | ok value => exact hok value rfl
  | error error => exact herror error rfl

theorem ensures_bind {post : Post Item Value ε β} {f : α → Task Content Change ε β}
    (h : layout.Ensures sound ⟨fun value held => layout.Ensures sound post (f value) held,
      post.error⟩ task held) : layout.Ensures sound post (task >>= f) held := by
  show layout.Ensures sound post (task.bind f) held
  induction task generalizing held with
  | done result =>
    cases result with
    | ok value => exact h
    | error error => exact h
  | read file next ih => exact fun content => ih content (h content)
  | persist file seen change next ih => exact ⟨h.1, ih true h.2.1, ih false h.2.2⟩

theorem ensures_handle {post : Post Item Value ε' α} {handler : ε → Task Content Change ε' α}
    (h : layout.Ensures sound ⟨post.ok, fun error held =>
      layout.Ensures sound post (handler error) held⟩ task held) :
    layout.Ensures sound post (task.handle handler) held := by
  induction task generalizing held with
  | done result =>
    cases result with
    | ok value => exact h
    | error error => exact h
  | read file next ih => exact fun content => ih content (h content)
  | persist file seen change next ih => exact ⟨h.1, ih true h.2.1, ih false h.2.2⟩

theorem ensures_readOnly {post : Post Item Value ε α} (h : task.ReadOnly)
    (hok : ∀ value, post.ok value held) (herror : ∀ error, post.error error held) :
    layout.Ensures sound post task held := by
  induction task with
  | done result =>
    cases result with
    | ok value => exact hok value
    | error error => exact herror error
  | read file next ih => exact fun content => ih content (h content)
  | persist file seen change next ih => exact h.elim

theorem ensures_mapError {post : Post Item Value ε' α} {f : ε → ε'}
    (h : layout.Ensures sound ⟨post.ok, fun error held => post.error (f error) held⟩ task held) :
    layout.Ensures sound post (task.mapError f) held :=
  ensures_handle h

end Rules

end Layout

/-- An element of an updated list is the new one or stands at another position. -/
theorem mem_set_cases {α : Type*} {elements : List α} {index : ℕ} {next other : α}
    (h : other ∈ elements.set index next) :
    other = next ∨ ∃ position, position ≠ index ∧ elements[position]? = some other := by
  obtain ⟨position, hposition⟩ := List.mem_iff_getElem?.mp h
  rw [List.getElem?_set] at hposition
  by_cases hindex : index = position
  · rw [if_pos hindex] at hposition
    split at hposition
    · exact .inl (Option.some.inj hposition).symm
    · cases hposition
  · rw [if_neg hindex] at hposition
    exact .inr ⟨position, fun h => hindex h.symm, hposition⟩

namespace Pool

open Layout

variable {File : Type} [DecidableEq File] {Content Change : File → Type} {Item Value ε Job : Type}
  (layout : Layout Content Change Item Value) (pool : Pool Content Change Item Value ε)

def opened (files : (file : File) → Content file) : Pool Content Change Item Value ε :=
  ⟨files, 0, [], [], []⟩

def withTask (index : ℕ) (call : Running Content Change Item Value ε)
    (task : Task Content Change ε (List (Item × Value))) (held : Held Item Value) :
    Pool Content Change Item Value ε :=
  { pool with running := pool.running.set index ⟨call.started, task, held⟩ }

/-- The file is replaced by the copy that the task read, with its change. -/
def replaced {file : File} (call : Running Content Change Item Value ε) (seen : Content file)
    (change : Change file) : Pool Content Change Item Value ε :=
  { pool with
    files := Function.update pool.files file (layout.apply change seen)
    writes := ⟨call.started, layout.sets change⟩ :: pool.writes }

def advanceCall (index : ℕ) (call : Running Content Change Item Value ε) (outcome : Outcome) :
    Pool Content Change Item Value ε :=
  match call.task with
  | .done (.ok effects) =>
      { pool with
        running := pool.running.eraseIdx index
        acknowledged := ⟨pool.now, effects⟩ :: pool.acknowledged }
  | .done (.error _) => { pool with running := pool.running.eraseIdx index }
  | .read file next => pool.withTask index call (next (pool.files file)) call.held
  | .persist _ seen change next =>
      match outcome with
      | .written => (pool.replaced layout call seen change).withTask index call (next true)
          (layout.afterWrite change call.held)
      | .failsBefore => pool.withTask index call (next false) fun _ => none
      | .failsAfter => (pool.replaced layout call seen change).withTask index call (next false)
          fun _ => none

def advanced (index : ℕ) (outcome : Outcome) : Pool Content Change Item Value ε :=
  match pool.running[index]? with
  | none => pool
  | some call => pool.advanceCall layout index call outcome

def step (task : Job → Task Content Change ε (List (Item × Value))) :
    Event Job → Pool Content Change Item Value ε
  | .start job => { pool with
      running := ⟨pool.now, task job, fun _ => none⟩ :: pool.running
      now := pool.now + 1 }
  | .advance index outcome => { pool.advanced layout index outcome with now := pool.now + 1 }
  | .stop => { pool with running := [], now := pool.now + 1 }

/-- No call that overlaps the writer has set the item. -/
def Free (index : ℕ) (call : Running Content Change Item Value ε) (item : Item) : Prop :=
  (∀ acknowledged ∈ pool.acknowledged, ∀ effect ∈ acknowledged.effects, effect.1 = item →
    acknowledged.ended < call.started) ∧
    ∀ other running, pool.running[other]? = some running → other ≠ index → running.held item = none

/-- A write that takes effect meets the file as the task read it, and changes no
item that a call has set which overlaps the writer. -/
def Guarded : Event Job → Prop
  | .advance index outcome => outcome ≠ .failsBefore →
      ∀ call file seen change next, pool.running[index]? = some call →
        call.task = .persist file seen change next → pool.files file = seen ∧
          ∀ item value, layout.sets change item = some value →
            layout.value pool.files item ≠ value → pool.Free index call item
  | _ => True

/-- What was acknowledged is in effect unless a call set it that started later. -/
def Kept : Prop :=
  ∀ acknowledged ∈ pool.acknowledged, ∀ effect ∈ acknowledged.effects,
    layout.value pool.files effect.1 = effect.2 ∨
      ∃ write ∈ pool.writes, acknowledged.ended < write.started ∧ (write.sets effect.1).isSome

/-- A task sets what it acknowledges. -/
def delivers : Post Item Value ε (List (Item × Value)) :=
  ⟨fun effects held => ∀ effect ∈ effects, held effect.1 = some effect.2, fun _ _ => True⟩

structure Invariant (sound : ((file : File) → Content file) → Prop) : Prop where
  files : sound pool.files
  tasks : ∀ call ∈ pool.running, layout.Ensures sound delivers call.task call.held
  held : ∀ call ∈ pool.running, ∀ item value, call.held item = some value →
    layout.value pool.files item = value
  kept : pool.Kept layout

section Runs

variable {layout} {pool} {sound : ((file : File) → Content file) → Prop} {index : ℕ}
  {call : Running Content Change Item Value ε}

/-- A task goes on without a write. -/
theorem Invariant.withTask {task : Task Content Change ε (List (Item × Value))}
    {held : Held Item Value} (h : pool.Invariant layout sound)
    (htask : layout.Ensures sound delivers task held)
    (hheld : ∀ item value, held item = some value → layout.value pool.files item = value) :
    (pool.withTask index call task held).Invariant layout sound := by
  refine ⟨h.files, fun other hother => ?_, fun other hother => ?_, h.kept⟩
  · rcases mem_set_cases hother with rfl | ⟨position, -, hother⟩
    · exact htask
    · exact h.tasks other (List.mem_of_getElem? hother)
  · rcases mem_set_cases hother with rfl | ⟨position, -, hother⟩
    · exact hheld
    · exact h.held other (List.mem_of_getElem? hother)

/-- A write leaves the items of the other calls in effect. -/
theorem replaced_preserves {file : File} {change : Change file}
    {task : Task Content Change ε (List (Item × Value))} {held : Held Item Value}
    (h : pool.Invariant layout sound)
    (hfree : ∀ item value, layout.sets change item = some value →
      layout.value pool.files item ≠ value → pool.Free index call item)
    (hsound : sound (Function.update pool.files file (layout.apply change (pool.files file))))
    (htask : layout.Ensures sound delivers task held)
    (hheld : ∀ item value, held item = some value →
      layout.sets change item = some value ∨
        layout.sets change item = none ∧ layout.value pool.files item = value) :
    ((pool.replaced layout call (pool.files file) change).withTask index call task held).Invariant
      layout sound := by
  have hvalue (item : Item) := layout.value_apply pool.files file change item
  have hkeep {item : Item} {value : Value} (hold : layout.value pool.files item = value)
      (hnone : ¬pool.Free index call item) : layout.value
        (Function.update pool.files file (layout.apply change (pool.files file))) item = value := by
    rw [hvalue]
    cases hsets : layout.sets change item with
    | none => exact hold
    | some set =>
      by_cases hsame : layout.value pool.files item = set
      · exact hsame.symm.trans hold
      · exact absurd (hfree item set hsets hsame) hnone
  refine ⟨hsound, fun other hother => ?_, fun other hother item value hitem => ?_, ?_⟩
  · rcases mem_set_cases hother with rfl | ⟨position, -, hother⟩
    · exact htask
    · exact h.tasks other (List.mem_of_getElem? hother)
  · rcases mem_set_cases hother with rfl | ⟨position, hposition, hother⟩
    · show layout.value (Function.update pool.files file _) item = value
      rw [hvalue]
      rcases hheld item value hitem with hset | ⟨hnone, hold⟩
      · rw [hset]
        rfl
      · rw [hnone]
        exact hold
    · refine hkeep (h.held other (List.mem_of_getElem? hother) item value hitem) fun hfree => ?_
      rw [hfree.2 position other hother hposition] at hitem
      cases hitem
  · intro acknowledged hacknowledged effect heffect
    rcases h.kept acknowledged hacknowledged effect heffect with hold | ⟨write, hwrite, hlater⟩
    · by_cases hfree : pool.Free index call effect.1
      · cases hsets : layout.sets change effect.1 with
        | none =>
          refine .inl ?_
          show layout.value (Function.update pool.files file _) effect.1 = effect.2
          rw [hvalue, hsets]
          exact hold
        | some set =>
          exact .inr ⟨_, List.mem_cons_self, hfree.1 acknowledged hacknowledged effect heffect rfl,
            Option.isSome_of_eq_some hsets⟩
      · exact .inl (hkeep hold hfree)
    · exact .inr ⟨write, List.mem_cons_of_mem _ hwrite, hlater⟩

theorem Invariant.erase (h : pool.Invariant layout sound) :
    ({ pool with running := pool.running.eraseIdx index } :
      Pool Content Change Item Value ε).Invariant layout sound :=
  ⟨h.files, fun other hother => h.tasks other (List.mem_of_mem_eraseIdx hother),
    fun other hother => h.held other (List.mem_of_mem_eraseIdx hother), h.kept⟩

theorem advanced_preserves {outcome : Outcome} (h : pool.Invariant layout sound)
    (hguarded : pool.Guarded layout (.advance index outcome : Event Job)) :
    (pool.advanced layout index outcome).Invariant layout sound := by
  unfold advanced
  cases hcall : pool.running[index]? with
  | none => exact h
  | some call =>
    have hmem := List.mem_of_getElem? hcall
    have htask := h.tasks call hmem
    have hheld := h.held call hmem
    obtain ⟨started, task, held⟩ := call
    cases task with
    | done result =>
      cases result with
      | error error => exact h.erase
      | ok effects =>
        refine ⟨h.files, h.erase.tasks, h.erase.held, fun acknowledged hacknowledged => ?_⟩
        rcases List.mem_cons.mp hacknowledged with rfl | hold
        · exact fun effect heffect => .inl (hheld _ _ (htask effect heffect))
        · exact h.kept acknowledged hold
    | read file next => exact h.withTask (htask _) hheld
    | persist file seen change next =>
      by_cases hbefore : outcome = .failsBefore
      · subst hbefore
        exact h.withTask htask.2.2 nofun
      · obtain ⟨rfl, hfree⟩ := hguarded hbefore _ file seen change next hcall rfl
        have hsound := htask.1 pool.files rfl h.files
        cases outcome with
        | failsBefore => exact absurd rfl hbefore
        | failsAfter => exact replaced_preserves h hfree hsound htask.2.2 nofun
        | written =>
          refine replaced_preserves h hfree hsound htask.2.1 fun item value hitem => ?_
          unfold afterWrite at hitem
          cases hsets : layout.sets change item with
          | none =>
            rw [hsets] at hitem
            exact .inr ⟨rfl, hheld item value hitem⟩
          | some set =>
            rw [hsets] at hitem
            exact .inl hitem

theorem step_preserves {task : Job → Task Content Change ε (List (Item × Value))}
    (htasks : ∀ job, layout.Ensures sound delivers (task job) fun _ => none) {event : Event Job}
    (h : pool.Invariant layout sound) (hguarded : pool.Guarded layout event) :
    (pool.step layout task event).Invariant layout sound := by
  cases event with
  | start job =>
    refine ⟨h.files, List.forall_mem_cons.mpr ⟨htasks job, h.tasks⟩,
      List.forall_mem_cons.mpr ⟨nofun, h.held⟩, h.kept⟩
  | advance index outcome =>
    obtain ⟨hsound, htasks, hheld, hkept⟩ := advanced_preserves h hguarded
    exact ⟨hsound, htasks, hheld, hkept⟩
  | stop => exact ⟨h.files, nofun, nofun, h.kept⟩

/-- In a run in which every write meets its file as it was read, no acknowledged
change is lost and the files stay sound. -/
theorem kept_of_guarded {task : Job → Task Content Change ε (List (Item × Value))}
    {files : (file : File) → Content file} (hfiles : sound files)
    (htasks : ∀ job, layout.Ensures sound delivers (task job) fun _ => none)
    (hrun : Runs.Reaches (fun pool event => Pool.step layout pool task event) (Guarded layout)
      (opened files : Pool Content Change Item Value ε) pool) :
    pool.Kept layout ∧ sound pool.files := by
  have h := hrun.invariant (fun pool => Invariant layout pool sound) ⟨hfiles, nofun, nofun, nofun⟩
    fun _ _ h hguarded => step_preserves htasks h hguarded
  exact ⟨h.kept, h.files⟩

end Runs

end Pool

end Ketebe.Lib.WholeFiles
