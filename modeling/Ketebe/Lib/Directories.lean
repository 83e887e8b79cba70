import Ketebe.Lib.ByteCodec
import Ketebe.Lib.Durable
import Mathlib.Data.String.Basic
import Mathlib.Order.Compare
import Std.Data.ExtTreeMap

/-!
Directories of files, every step on which may fail or meet a crash. A file is replaced as a
whole: its bytes are written aside one by one and renamed. A crash may leave behind what was
written aside, cut at any byte, and nothing else.
-/
namespace Ketebe.Lib.Directories

open ByteCodec Durable Durable.Program

abbrev Directory := Std.ExtTreeMap String Bytes compare

variable {ε : Type} (error : ε) (name : String)

def appendByte (byte : UInt8) (directory : Directory) : Directory :=
  match directory[name]? with
  | some content => directory.insert name (content ++ [byte])
  | none => directory

def rename (target : String) (directory : Directory) : Directory :=
  match directory[name]? with
  | some content => (directory.erase name).insert target content
  | none => directory

def removeIfExists : Program Directory ε Unit := do
  let directory ← get
  if name ∈ directory then durable error (·.erase name) else pure ()

/-- A file that is created must not be there yet. -/
def createNew : Program Directory ε Unit := do
  let directory ← get
  if name ∈ directory then throw error else durable error (·.insert name [])

/-- A file that is opened for appending is created when it is missing. -/
def createIfMissing : Program Directory ε Unit := do
  let directory ← get
  if name ∈ directory then pure () else durable error (·.insert name [])

def writeAll (bytes : Bytes) : Program Directory ε Unit :=
  forEach (fun byte => durable error (appendByte name byte)) bytes

/-- Syncs the file that was written aside, renames it and syncs the directory. -/
def install (target : String) : Program Directory ε Unit := do
  attempt error
  durable error (rename name target)
  attempt error

/-! ### What is written aside -/

variable {name} {before state : Directory} {written bytes : Bytes} {target : String}

theorem getElem?_insert_self (directory : Directory) (content : Bytes) :
    (directory.insert name content)[name]? = some content := by
  rw [Std.ExtTreeMap.getElem?_insert, if_pos Std.ReflCmp.compare_self]

theorem getElem?_insert_ne {other : String} (h : other ≠ name) (directory : Directory)
    (content : Bytes) : (directory.insert name content)[other]? = directory[other]? := by
  rw [Std.ExtTreeMap.getElem?_insert, if_neg fun heq => h (compare_eq_iff_eq.mp heq).symm]

theorem getElem?_erase_self (directory : Directory) : (directory.erase name)[name]? = none := by
  rw [Std.ExtTreeMap.getElem?_erase, if_pos Std.ReflCmp.compare_self]

theorem getElem?_erase_ne {other : String} (h : other ≠ name) (directory : Directory) :
    (directory.erase name)[other]? = directory[other]? := by
  rw [Std.ExtTreeMap.getElem?_erase, if_neg fun heq => h (compare_eq_iff_eq.mp heq).symm]

theorem getElem?_eq_none_of_not_mem {directory : Directory} (h : name ∉ directory) :
    directory[name]? = none := Std.ExtTreeMap.getElem?_eq_none h

theorem not_mem_of_getElem?_eq_none {directory : Directory} (h : directory[name]? = none) :
    name ∉ directory := by
  rw [Std.ExtTreeMap.mem_iff_isSome_getElem?, h]
  exact Bool.false_ne_true

/-- The directories agree on all other names. -/
def SameBut (name : String) (before after : Directory) : Prop :=
  ∀ other, other ≠ name → after[other]? = before[other]?

theorem SameBut.refl (name : String) (directory : Directory) : SameBut name directory directory :=
  fun _ _ => rfl

theorem SameBut.insert (h : SameBut name before state) (content : Bytes) :
    SameBut name before (state.insert name content) :=
  fun other hother => (getElem?_insert_ne hother state content).trans (h other hother)

theorem SameBut.erase (h : SameBut name before state) : SameBut name before (state.erase name) :=
  fun other hother => (getElem?_erase_ne hother state).trans (h other hother)

/-- However a step ends, only the file that is written aside has changed. -/
def aside (name : String) (before : Directory) (content : Option Bytes) :
    Post Directory ε Unit where
  ok := fun _ after => SameBut name before after ∧ after[name]? = content
  error := fun _ after => SameBut name before after
  crashed := fun after => SameBut name before after

theorem removeIfExists_aside (h : SameBut name before state) :
    (removeIfExists error name).Ensures (aside name before none) state := by
  refine ensures_getBind ?_
  by_cases hmem : name ∈ state
  · rw [if_pos hmem]
    exact ensures_durable ⟨h.erase, getElem?_erase_self state⟩ h h.erase h h.erase
  · rw [if_neg hmem]
    exact ensures_pure ⟨h, getElem?_eq_none_of_not_mem hmem⟩

theorem createNew_aside (h : SameBut name before state) (hnone : state[name]? = none) :
    (createNew error name).Ensures (aside name before (some [])) state := by
  refine ensures_getBind ?_
  rw [if_neg (not_mem_of_getElem?_eq_none hnone)]
  exact ensures_durable ⟨h.insert [], getElem?_insert_self state []⟩ h (h.insert []) h (h.insert [])

theorem createIfMissing_aside (h : SameBut name before state) (hnone : state[name]? = none) :
    (createIfMissing error name).Ensures (aside name before (some [])) state := by
  refine ensures_getBind ?_
  rw [if_neg (not_mem_of_getElem?_eq_none hnone)]
  exact ensures_durable ⟨h.insert [], getElem?_insert_self state []⟩ h (h.insert []) h (h.insert [])

theorem appendByte_eq (hcontent : state[name]? = some written) (byte : UInt8) :
    appendByte name byte state = state.insert name (written ++ [byte]) := by
  rw [appendByte, hcontent]

theorem writeAll_aside (h : SameBut name before state) (hcontent : state[name]? = some written)
    (bytes : Bytes) :
    (writeAll error name bytes).Ensures (aside name before (some (written ++ bytes))) state := by
  induction bytes generalizing state written with
  | nil =>
    rw [List.append_nil]
    exact ensures_pure ⟨h, hcontent⟩
  | cons byte rest ih =>
    have hnext := h.insert (written ++ [byte])
    have hrest := ih hnext (getElem?_insert_self state _)
    rw [List.append_assoc] at hrest
    refine ensures_bind (ensures_durable ?_ h ?_ h ?_)
    · change (forEach _ rest).Ensures _ _
      rw [appendByte_eq hcontent]
      exact hrest
    · change SameBut name before _
      rwa [appendByte_eq hcontent]
    · change SameBut name before _
      rwa [appendByte_eq hcontent]

/-! ### Replacing a file -/

/-- The file has this content; the other files, but for the one aside, are as before. -/
def Replaced (name target : String) (bytes : Bytes) (before after : Directory) : Prop :=
  after[target]? = some bytes ∧ ∀ other, other ≠ name → other ≠ target →
    after[other]? = before[other]?

/-- A replacement that ends early has replaced the whole file or nothing. -/
def replaces (name target : String) (bytes : Bytes) (before : Directory) :
    Post Directory ε Unit where
  ok := fun _ after => Replaced name target bytes before after
  error := fun _ after => SameBut name before after ∨ Replaced name target bytes before after
  crashed := fun after => SameBut name before after ∨ Replaced name target bytes before after

/-- A step on the file aside may come before what replaces the other one. -/
theorem ensures_of_aside {α : Type} {program : Program Directory ε Unit} {content : Option Bytes}
    {next : Unit → Program Directory ε α} {post : Post Directory ε α}
    (h : program.Ensures (aside name before content) state)
    (herror : ∀ error after, SameBut name before after → post.error error after)
    (hcrashed : ∀ after, SameBut name before after → post.crashed after)
    (hnext : ∀ after, SameBut name before after → after[name]? = content →
      (next ()).Ensures post after) : (program >>= next).Ensures post state :=
  ensures_bind (h.mono (fun _ after hok => hnext after hok.1 hok.2)
    (fun error after => herror error after) fun after => hcrashed after)

theorem replaced_rename (h : SameBut name before state) (hcontent : state[name]? = some bytes) :
    Replaced name target bytes before (rename name target state) := by
  rw [rename, hcontent]
  refine ⟨getElem?_insert_self _ _, fun other hother hne => ?_⟩
  rw [getElem?_insert_ne hne, getElem?_erase_ne hother]
  exact h other hother

theorem install_replaces (h : SameBut name before state) (hcontent : state[name]? = some bytes) :
    (install error name target).Ensures (replaces name target bytes before) state := by
  have hnew : Replaced name target bytes before (rename name target state) :=
    replaced_rename h hcontent
  refine ensures_bind (ensures_attempt ?_ (.inl h) (.inl h))
  refine ensures_bind (ensures_durable ?_ (.inl h) (.inr hnew) (.inl h) (.inr hnew))
  exact ensures_attempt hnew (.inr hnew) (.inr hnew)

/-! ### Without faults -/

theorem returns_removeIfExists (name : String) (state : Directory) :
    ∃ after, (removeIfExists error name).Returns state () after ∧ SameBut name state after ∧
      after[name]? = none := by
  by_cases hmem : name ∈ state
  · refine ⟨state.erase name, returns_getBind ?_, (SameBut.refl name state).erase,
      getElem?_erase_self state⟩
    rw [if_pos hmem]
    rfl
  · refine ⟨state, returns_getBind ?_, SameBut.refl name state, getElem?_eq_none_of_not_mem hmem⟩
    rw [if_neg hmem]
    rfl

theorem returns_createNew (hnone : state[name]? = none) :
    (createNew error name).Returns state () (state.insert name []) := by
  refine returns_getBind ?_
  rw [if_neg (not_mem_of_getElem?_eq_none hnone)]
  rfl

theorem returns_createIfMissing (hnone : state[name]? = none) :
    (createIfMissing error name).Returns state () (state.insert name []) := by
  refine returns_getBind ?_
  rw [if_neg (not_mem_of_getElem?_eq_none hnone)]
  rfl

theorem returns_writeAll (h : SameBut name before state) (hcontent : state[name]? = some written)
    (bytes : Bytes) : ∃ after, (writeAll error name bytes).Returns state () after ∧
      SameBut name before after ∧ after[name]? = some (written ++ bytes) := by
  induction bytes generalizing state written with
  | nil => exact ⟨state, returns_pure, h, by rw [hcontent, List.append_nil]⟩
  | cons byte rest ih =>
    obtain ⟨after, hreturns, hsame, hafter⟩ :=
      ih (h.insert (written ++ [byte])) (getElem?_insert_self state _)
    rw [List.append_assoc] at hafter
    refine ⟨after, ?_, hsame, hafter⟩
    rw [← appendByte_eq hcontent] at hreturns
    exact returns_bind rfl hreturns

theorem returns_install (target : String) (h : SameBut name before state)
    (hcontent : state[name]? = some bytes) : ∃ after, (install error name target).Returns state () after ∧
      Replaced name target bytes before after :=
  ⟨rename name target state, rfl, replaced_rename h hcontent⟩

/-! ### Writing aside and renaming -/

variable (name) in
def replaceFile (target : String) (bytes : Bytes) : Program Directory ε Unit := do
  createNew error name
  writeAll error name bytes
  install error name target

theorem replaceFile_replaces (h : SameBut name before state) (hnone : state[name]? = none)
    (bytes : Bytes) :
    (replaceFile error name target bytes).Ensures (replaces name target bytes before) state := by
  refine ensures_of_aside (createNew_aside error h hnone) (fun _ _ => .inl) (fun _ => .inl) ?_
  intro created hcreated hempty
  refine ensures_of_aside (writeAll_aside error hcreated hempty bytes) (fun _ _ => .inl)
    (fun _ => .inl) ?_
  intro after hafter hcontent
  exact install_replaces error hafter hcontent

theorem returns_replaceFile (h : SameBut name before state) (hnone : state[name]? = none)
    (bytes : Bytes) :
    ∃ after, (replaceFile error name target bytes).Returns state () after ∧
      Replaced name target bytes before after := by
  obtain ⟨middle, hwrite, hsame, hcontent⟩ :=
    returns_writeAll error (h.insert []) (getElem?_insert_self state []) bytes
  obtain ⟨after, hinstall, hreplaced⟩ := returns_install error target hsame hcontent
  exact ⟨after, returns_bind (returns_createNew error hnone) (returns_bind hwrite hinstall),
    hreplaced⟩

end Ketebe.Lib.Directories
