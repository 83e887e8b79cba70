import Mathlib.Data.List.Forall2
import Mathlib.Tactic.NormNum
import Mathlib.Tactic.Ring

/-!
Byte strings, little-endian words and prefix readers. A reader consumes a
prefix of its input and returns the rest; `Reads` says that it inverts one
encoding whatever follows it, `Splits` that it never invents input.
-/
namespace Ketebe.Lib.ByteCodec

abbrev Bytes := List UInt8

/-- The `width` least significant bytes, least significant first. -/
def leBytes : ℕ → ℕ → Bytes
  | 0, _ => []
  | width + 1, value => UInt8.ofNat value :: leBytes width (value / 256)

def leValue : Bytes → ℕ
  | [] => 0
  | byte :: rest => byte.toNat + 256 * leValue rest

@[simp] theorem length_leBytes (width value : ℕ) : (leBytes width value).length = width := by
  induction width generalizing value with
  | zero => rfl
  | succ width ih => simp only [leBytes, List.length_cons, ih]

theorem leValue_leBytes (width value : ℕ) (h : value < 256 ^ width) :
    leValue (leBytes width value) = value := by
  induction width generalizing value with
  | zero =>
    simp only [pow_zero, Nat.lt_one_iff] at h
    simp only [leBytes, leValue, h]
  | succ width ih =>
    have hdiv : value / 256 < 256 ^ width := by
      rw [Nat.div_lt_iff_lt_mul (by norm_num)]
      simpa only [pow_succ] using h
    simp only [leBytes, leValue, ih _ hdiv, UInt8.toNat_ofNat']
    omega

theorem leValue_lt (bytes : Bytes) : leValue bytes < 256 ^ bytes.length := by
  induction bytes with
  | nil => simp [leValue]
  | cons byte rest ih =>
    have hbyte : byte.toNat < 256 := byte.toNat_lt
    simp only [leValue, List.length_cons, pow_succ]
    omega

/-- The UTF-8 bytes of a string. -/
def utf8 (value : String) : Bytes := value.toUTF8.data.toList

theorem length_utf8 (value : String) : (utf8 value).length = value.utf8ByteSize := rfl

def ofUtf8 (bytes : Bytes) : Option String := String.fromUTF8? ⟨bytes.toArray⟩

theorem ofUtf8_utf8 (value : String) : ofUtf8 (utf8 value) = some value := by
  have hbytes : (⟨(utf8 value).toArray⟩ : ByteArray) = value.toByteArray := by
    simp only [utf8, Array.toArray_toList]
    rfl
  rw [ofUtf8, hbytes]
  exact dif_pos value.isValidUTF8

/-- A reader of a prefix, failing with an error of type `ε`. -/
abbrev Reader (ε α : Type) := StateT Bytes (Except ε) α

variable {ε α β : Type}

/-- The next `count` bytes, or the error `short` when fewer are left. -/
def Reader.take (short : ε) (count : ℕ) : Reader ε Bytes := fun input =>
  if count ≤ input.length then .ok (input.take count, input.drop count) else .error short

def Reader.fail (error : ε) : Reader ε α := fun _ => .error error

/-- Lifts a validation of a value already read. -/
def Reader.check (result : Except ε α) : Reader ε α := fun input =>
  match result with
  | .ok value => .ok (value, input)
  | .error error => .error error

/-- The same reader with other errors. -/
def Reader.mapError {ε' : Type} (f : ε → ε') (reader : Reader ε α) : Reader ε' α := fun input =>
  (reader input).mapError f

/-- `count` values in a row. -/
def Reader.times (reader : Reader ε α) : ℕ → Reader ε (List α)
  | 0 => pure []
  | count + 1 => do
    let head ← reader
    let tail ← Reader.times reader count
    pure (head :: tail)

/-- `count` values in a row whose keys differ from each other and from the seen ones. -/
def Reader.timesDistinct {κ : Type} [DecidableEq κ] (reader : Reader ε α) (key : α → κ)
    (duplicate : ε) : List κ → ℕ → Reader ε (List α)
  | _, 0 => pure []
  | seen, count + 1 => do
    let head ← reader
    if key head ∈ seen then Reader.fail duplicate
    else do
      let tail ← Reader.timesDistinct reader key duplicate (key head :: seen) count
      pure (head :: tail)

/-- The encodings of all values, one after the other. -/
def encodeAll (write : α → Except ε Bytes) : List α → Except ε Bytes
  | [] => pure []
  | value :: rest => do
    let head ← write value
    let tail ← encodeAll write rest
    pure (head ++ tail)

theorem except_ok_bind (a : α) (f : α → Except ε β) : Except.ok a >>= f = f a := rfl

/-- A computation with errors succeeds when both halves do. -/
theorem except_bind_ok {x : Except ε α} {f : α → Except ε β} {b : β} :
    x >>= f = .ok b ↔ ∃ a, x = .ok a ∧ f a = .ok b := by
  cases x with
  | error error => simp [bind, Except.bind]
  | ok a => simp [bind, Except.bind]

/-- The same for a check, which returns no value. -/
theorem except_check_ok {x : Except ε Unit} {f : Unit → Except ε β} {b : β} :
    x >>= f = .ok b ↔ x = .ok () ∧ f () = .ok b := by
  rw [except_bind_ok]
  constructor
  · intro ⟨_, hx, hf⟩
    exact ⟨hx, hf⟩
  · intro ⟨hx, hf⟩
    exact ⟨(), hx, hf⟩

theorem mapError_ok_iff {ε' : Type} {result : Except ε α} {f : ε → ε'} {value : α} :
    result.mapError f = .ok value ↔ result = .ok value := by
  cases result <;> simp [Except.mapError]

theorem except_forM_ok {body : α → Except ε Unit} {elements : List α} :
    elements.forM body = .ok () ↔ ∀ element ∈ elements, body element = .ok () := by
  induction elements with
  | nil => exact ⟨fun _ => nofun, fun _ => rfl⟩
  | cons head rest ih =>
    rw [List.forall_mem_cons, ← ih]
    change (body head >>= fun _ => rest.forM body) = _ ↔ _
    rw [except_bind_ok]
    constructor
    · rintro ⟨⟨⟩, hhead, hrest⟩
      exact ⟨hhead, hrest⟩
    · rintro ⟨hhead, hrest⟩
      exact ⟨(), hhead, hrest⟩

theorem except_mapM_ok {f : α → Except ε β} {elements : List α} {values : List β} :
    elements.mapM f = .ok values ↔
      List.Forall₂ (fun element value => f element = .ok value) elements values := by
  induction elements generalizing values with
  | nil => simp [pure, Except.pure, eq_comm, List.forall₂_nil_left_iff]
  | cons head rest ih =>
    rw [List.mapM_cons, except_bind_ok, List.forall₂_cons_left_iff]
    constructor
    · rintro ⟨value, hvalue, h⟩
      obtain ⟨later, hlater, h⟩ := except_bind_ok.mp h
      cases h
      exact ⟨value, later, hvalue, ih.mp hlater, rfl⟩
    · rintro ⟨value, later, hvalue, hlater, rfl⟩
      exact ⟨value, hvalue, except_bind_ok.mpr ⟨later, ih.mpr hlater, rfl⟩⟩

/-- The values of a traversal are those of its elements. -/
theorem mem_of_except_mapM {f : α → Except ε β} {elements : List α} {values : List β}
    (h : elements.mapM f = .ok values) :
    (∀ value ∈ values, ∃ element ∈ elements, f element = .ok value) ∧
      ∀ element ∈ elements, ∃ value ∈ values, f element = .ok value := by
  have hpairs := except_mapM_ok.mp h
  clear h
  induction hpairs with
  | nil => exact ⟨nofun, nofun⟩
  | cons hhead _ ih =>
    simp only [List.forall_mem_cons, List.exists_mem_cons_iff]
    refine ⟨⟨.inl hhead, fun value hvalue => .inr (ih.1 value hvalue)⟩, .inl hhead, ?_⟩
    exact fun element helement => .inr (ih.2 element helement)

/-- A traversal succeeds when every element does. -/
theorem except_mapM_exists {f : α → Except ε β} {elements : List α} :
    (∃ values, elements.mapM f = .ok values) ↔
      ∀ element ∈ elements, ∃ value, f element = .ok value := by
  constructor
  · rintro ⟨values, h⟩ element helement
    obtain ⟨value, -, hvalue⟩ := (mem_of_except_mapM h).2 element helement
    exact ⟨value, hvalue⟩
  · intro h
    induction elements with
    | nil => exact ⟨[], rfl⟩
    | cons head rest ih =>
      obtain ⟨value, hvalue⟩ := h head (List.mem_cons_self ..)
      obtain ⟨values, hvalues⟩ := ih fun element helement => h element (List.mem_cons_of_mem _ helement)
      exact ⟨value :: values, except_mapM_ok.mpr (.cons hvalue (except_mapM_ok.mp hvalues))⟩

/-- What every step of a loop keeps holds after the loop. -/
theorem except_foldlM_keeps {kept : β → Prop} {step : β → α → Except ε β} {elements : List α}
    (hstep : ∀ element ∈ elements, ∀ state next, kept state → step state element = .ok next →
      kept next) {state final : β} (hstate : kept state)
    (h : elements.foldlM step state = .ok final) : kept final := by
  induction elements generalizing state with
  | nil =>
    cases h
    exact hstate
  | cons head rest ih =>
    rw [List.foldlM_cons] at h
    obtain ⟨next, hnext, h⟩ := except_bind_ok.mp h
    exact ih (fun element helement => hstep element (List.mem_cons_of_mem _ helement))
      (hstep head (List.mem_cons_self ..) state next hstate hnext) h

theorem Reader.bind_ok {reader : Reader ε α} {next : α → Reader ε β} {input rest : Bytes} {b : β} :
    (reader >>= next) input = .ok (b, rest) ↔
      ∃ a middle, reader input = .ok (a, middle) ∧ next a middle = .ok (b, rest) := by
  change (reader input >>= fun p => next p.1 p.2) = _ ↔ _
  cases hread : reader input with
  | error error => simp [bind, Except.bind]
  | ok pair =>
    obtain ⟨a, middle⟩ := pair
    simp [bind, Except.bind]

theorem Reader.bind_of_ok {reader : Reader ε α} {next : α → Reader ε β} {input middle : Bytes}
    {a : α} (h : reader input = .ok (a, middle)) : (reader >>= next) input = next a middle := by
  change (reader input >>= fun p => next p.1 p.2) = _
  rw [h]
  rfl

/-- The reader inverts this encoding of the value, whatever follows it. -/
def Reads (reader : Reader ε α) (encoding : Bytes) (value : α) : Prop :=
  ∀ rest, reader (encoding ++ rest) = .ok (value, rest)

namespace Reads

theorem pure (value : α) : Reads (ε := ε) (Pure.pure value) [] value := fun _ => rfl

theorem lift {result : Except ε α} {value : α} (h : result = .ok value) :
    Reads (Reader.check result) [] value := by
  intro rest
  simp only [Reader.check, h, List.nil_append]

theorem take (short : ε) (bytes : Bytes) : Reads (Reader.take short bytes.length) bytes bytes := by
  intro rest
  simp only [Reader.take, List.length_append, List.take_left, List.drop_left]
  rw [if_pos (by omega)]

theorem bind {reader : Reader ε α} {f : α → Reader ε β} {first second : Bytes} {a : α} {b : β}
    (ha : Reads reader first a) (hb : Reads (f a) second b) :
    Reads (reader >>= f) (first ++ second) b := by
  intro rest
  rw [List.append_assoc, Reader.bind_of_ok (ha _)]
  exact hb rest

/-- A reader that ends in a pure step. -/
theorem map {reader : Reader ε α} {f : α → β} {encoding : Bytes} {a : α}
    (ha : Reads reader encoding a) :
    Reads (reader >>= fun value => Pure.pure (f value)) encoding (f a) := by
  have h := ha.bind (f := fun value => Pure.pure (f value)) (pure (f a))
  simpa only [List.append_nil] using h

/-- A reader that ends in a validation of the value read. -/
theorem check {reader : Reader ε α} {f : α → Except ε β} {encoding : Bytes} {a : α} {b : β}
    (ha : Reads reader encoding a) (h : f a = .ok b) :
    Reads (reader >>= fun value => Reader.check (f value)) encoding b := by
  have hbind := ha.bind (f := fun value => Reader.check (f value)) (lift h)
  simpa only [List.append_nil] using hbind

theorem mapError {ε' : Type} {reader : Reader ε α} {encoding : Bytes} {value : α}
    (h : Reads reader encoding value) (f : ε → ε') :
    Reads (reader.mapError f) encoding value := by
  intro rest
  rw [Reader.mapError, h rest]
  rfl

theorem times_cons {reader : Reader ε α} {count : ℕ} {first second : Bytes} {head : α}
    {tail : List α} (hhead : Reads reader first head)
    (htail : Reads (Reader.times reader count) second tail) :
    Reads (Reader.times reader (count + 1)) (first ++ second) (head :: tail) :=
  hhead.bind htail.map

/-- Concatenated encodings are read back one by one. -/
theorem times {reader : Reader ε α} (encode : α → Bytes) (values : List α)
    (h : ∀ value ∈ values, Reads reader (encode value) value) :
    Reads (Reader.times reader values.length) (values.flatMap encode) values := by
  induction values with
  | nil => exact pure []
  | cons head tail ih =>
    rw [List.flatMap_cons]
    exact times_cons (h head (List.mem_cons_self ..))
      (ih fun value hvalue => h value (List.mem_cons_of_mem _ hvalue))

/-- The values written one after the other are read back one by one. -/
theorem encodeAll {reader : Reader ε α} {ε' : Type} {write : α → Except ε' Bytes} {values : List α}
    {bytes : Bytes} (hreads : ∀ value ∈ values, ∀ encoding, write value = .ok encoding →
      Reads reader encoding value)
    (h : ByteCodec.encodeAll write values = .ok bytes) :
    Reads (Reader.times reader values.length) bytes values := by
  induction values generalizing bytes with
  | nil =>
    cases h
    exact pure []
  | cons value rest ih =>
    obtain ⟨head, hhead, h⟩ := except_bind_ok.mp h
    obtain ⟨tail, htail, h⟩ := except_bind_ok.mp h
    cases h
    exact (hreads value (List.mem_cons_self ..) head hhead).times_cons
      (ih (fun other hother => hreads other (List.mem_cons_of_mem _ hother)) htail)

/-- So are values with distinct keys, their distinctness checked on the way. -/
theorem encodeAll_distinct {κ : Type} [DecidableEq κ] {reader : Reader ε α} {key : α → κ}
    {duplicate : ε} {ε' : Type} {write : α → Except ε' Bytes} {values : List α} {seen : List κ}
    {bytes : Bytes} (hreads : ∀ value ∈ values, ∀ encoding, write value = .ok encoding →
      Reads reader encoding value)
    (hdistinct : (values.map key).Nodup) (hseen : ∀ value ∈ values, key value ∉ seen)
    (h : ByteCodec.encodeAll write values = .ok bytes) :
    Reads (Reader.timesDistinct reader key duplicate seen values.length) bytes values := by
  induction values generalizing bytes seen with
  | nil =>
    cases h
    exact pure []
  | cons value rest ih =>
    obtain ⟨head, hhead, h⟩ := except_bind_ok.mp h
    obtain ⟨tail, htail, h⟩ := except_bind_ok.mp h
    cases h
    obtain ⟨hnew, hrest⟩ := List.nodup_cons.mp hdistinct
    have hlater : ∀ other ∈ rest, key other ∉ key value :: seen := by
      intro other hother hmem
      rcases List.mem_cons.mp hmem with heq | hold
      · exact hnew (heq ▸ List.mem_map_of_mem hother)
      · exact hseen other (List.mem_cons_of_mem _ hother) hold
    refine (hreads value (List.mem_cons_self ..) head hhead).bind ?_
    rw [if_neg (hseen value (List.mem_cons_self ..))]
    exact (ih (fun other hother => hreads other (List.mem_cons_of_mem _ hother)) hrest hlater
      htail).map

end Reads

theorem encodeAll_exists {write : α → Except ε Bytes} {values : List α}
    (h : ∀ value ∈ values, ∃ bytes, write value = .ok bytes) :
    ∃ bytes, encodeAll write values = .ok bytes := by
  induction values with
  | nil => exact ⟨[], rfl⟩
  | cons value rest ih =>
    obtain ⟨head, hhead⟩ := h value (List.mem_cons_self ..)
    obtain ⟨tail, htail⟩ := ih fun other hother => h other (List.mem_cons_of_mem _ hother)
    exact ⟨_, except_bind_ok.mpr ⟨head, hhead, except_bind_ok.mpr ⟨tail, htail, rfl⟩⟩⟩

theorem length_encodeAll_le {write : α → Except ε Bytes} {values : List α} {bytes : Bytes}
    {bound : ℕ} (hbound : ∀ value ∈ values, ∀ encoding, write value = .ok encoding →
      encoding.length ≤ bound) (h : encodeAll write values = .ok bytes) :
    bytes.length ≤ values.length * bound := by
  induction values generalizing bytes with
  | nil =>
    cases h
    simp
  | cons value rest ih =>
    obtain ⟨head, hhead, h⟩ := except_bind_ok.mp h
    obtain ⟨tail, htail, h⟩ := except_bind_ok.mp h
    cases h
    have hfirst := hbound value (List.mem_cons_self ..) head hhead
    have hrest := ih (fun other hother => hbound other (List.mem_cons_of_mem _ hother)) htail
    rw [List.length_append, List.length_cons, Nat.succ_mul]
    omega

/-- The rest of an accepted input is a suffix of it. -/
def Splits (reader : Reader ε α) : Prop :=
  ∀ input value rest, reader input = .ok (value, rest) → ∃ used, input = used ++ rest

namespace Splits

theorem pure (value : α) : Splits (ε := ε) (Pure.pure value) := by
  intro input a rest h
  cases h
  exact ⟨[], rfl⟩

theorem take (short : ε) (count : ℕ) : Splits (Reader.take short count) := by
  intro input value rest h
  simp only [Reader.take] at h
  split at h
  · cases h
    exact ⟨input.take count, (List.take_append_drop count input).symm⟩
  · cases h

theorem bind {reader : Reader ε α} {next : α → Reader ε β} (ha : Splits reader)
    (hb : ∀ a, Splits (next a)) : Splits (reader >>= next) := by
  intro input value rest h
  obtain ⟨a, middle, hfirst, hsecond⟩ := Reader.bind_ok.mp h
  obtain ⟨used, hused⟩ := ha _ _ _ hfirst
  obtain ⟨used', hused'⟩ := hb a _ _ _ hsecond
  exact ⟨used ++ used', by rw [hused, hused', List.append_assoc]⟩

theorem fail (error : ε) : Splits (Reader.fail error : Reader ε α) := by
  intro input value rest h
  cases h

theorem check (result : Except ε α) : Splits (Reader.check result) := by
  intro input value rest h
  cases result with
  | error error => cases h
  | ok a =>
    cases h
    exact ⟨[], rfl⟩

theorem times {reader : Reader ε α} (hr : Splits reader) (count : ℕ) :
    Splits (Reader.times reader count) := by
  induction count with
  | zero => exact pure []
  | succ count ih => exact hr.bind fun head => ih.bind fun tail => pure (head :: tail)

theorem length_le {reader : Reader ε α} (hr : Splits reader) {input rest : Bytes} {value : α}
    (h : reader input = .ok (value, rest)) : rest.length ≤ input.length := by
  obtain ⟨used, hused⟩ := hr _ _ _ h
  have hlength := congrArg List.length hused
  rw [List.length_append] at hlength
  omega

end Splits

/-- The readers agree on every input of at most `bound` bytes. -/
def AgreesUpTo (bound : ℕ) (first second : Reader ε α) : Prop :=
  ∀ input : Bytes, input.length ≤ bound → first input = second input

namespace AgreesUpTo

/-- After a reader that only consumes, agreement is needed on the rest. -/
theorem bind {bound : ℕ} {first second : Reader ε α} {f g : α → Reader ε β}
    (hfirst : AgreesUpTo bound first second) (hsplits : Splits first)
    (hnext : ∀ a, AgreesUpTo bound (f a) (g a)) :
    AgreesUpTo bound (first >>= f) (second >>= g) := by
  intro input hinput
  change (first input >>= fun p => f p.1 p.2) = (second input >>= fun p => g p.1 p.2)
  rw [← hfirst input hinput]
  cases hread : first input with
  | error error => rfl
  | ok pair => exact hnext pair.1 pair.2 ((hsplits.length_le hread).trans hinput)

theorem times {bound : ℕ} {first second : Reader ε α} (hfirst : AgreesUpTo bound first second)
    (hsplits : Splits first) (count : ℕ) :
    AgreesUpTo bound (Reader.times first count) (Reader.times second count) := by
  induction count with
  | zero => exact fun _ _ => rfl
  | succ count ih =>
    exact hfirst.bind hsplits fun head => ih.bind (hsplits.times count) fun tail => fun _ _ => rfl

end AgreesUpTo

end Ketebe.Lib.ByteCodec
