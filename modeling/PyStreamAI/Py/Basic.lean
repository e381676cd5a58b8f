import Mathlib.Data.Nat.Notation

/-!
# Exceptions, texts and dates

An exception is the pair of texts the code reads off it, `type(e).__name__` and `str(e)`. A call
on a mutable object returns its result or its exception together with the object it leaves
behind (`Res`): an exception does not undo what was assigned before it.
-/

namespace Py

/-- An exception: the name of its class and its text. -/
structure Error where
  typeName : String
  text : String
  deriving DecidableEq, Repr

/-- Reading the attribute `attr` of `None`. -/
def Error.noneAttribute (attr : String) : Error :=
  ⟨"AttributeError", s!"'NoneType' object has no attribute '{attr}'"⟩

/-- `except ImportError` catches it. -/
def Error.isImportError (e : Error) : Bool :=
  e.typeName = "ImportError" || e.typeName = "ModuleNotFoundError"

/-- The result of a call on an object of type `σ`, with the object after the call. -/
abbrev Res (σ α : Type*) := Except Error α × σ

/-- What a call can raise: an `Exception`, or a `BaseException` that `except Exception` lets
pass. -/
inductive Exn
  | exception (e : Error)
  | base (e : Error)
  deriving DecidableEq, Repr

/-- The call returned. -/
def Returns {α : Type*} (r : Except Error α) : Prop := ∃ a, r = .ok a

@[simp] theorem returns_ok {α : Type*} (a : α) : Returns (.ok a : Except Error α) := ⟨a, rfl⟩

@[simp] theorem not_returns_error {α : Type*} (e : Error) :
    ¬ Returns (.error e : Except Error α) := by
  rintro ⟨a, h⟩
  cases h

section Bind

variable {ε α β : Type} {x : Except ε α} {f : α → Except ε β}

@[simp] theorem ok_bind (a : α) : (.ok a : Except ε α) >>= f = f a := rfl

@[simp] theorem error_bind (e : ε) : (.error e : Except ε α) >>= f = .error e := rfl

theorem bind_eq_ok {b : β} (h : x >>= f = .ok b) : ∃ a, x = .ok a ∧ f a = .ok b := by
  cases x with
  | error e => cases h
  | ok a => exact ⟨a, rfl, h⟩

theorem bind_eq_error_iff {e : ε} :
    x >>= f = .error e ↔ x = .error e ∨ ∃ a, x = .ok a ∧ f a = .error e := by
  cases x with
  | error e' => simp
  | ok a => simp

end Bind

/-! ## Texts -/

/-- The hexadecimal digits of `n`, at least `width` of them. -/
def hexPad (width n : ℕ) : List Char :=
  let ds := Nat.toDigits 16 n
  List.replicate (width - ds.length) '0' ++ ds

/-- One character inside `repr(s)` quoted with `q`. Characters beyond ASCII are taken to be
printable. -/
def pyReprChar (q c : Char) : List Char :=
  if c = q ∨ c = '\\' then ['\\', c]
  else if c = '\n' then ['\\', 'n']
  else if c = '\r' then ['\\', 'r']
  else if c = '\t' then ['\\', 't']
  else if c.toNat < 0x20 ∨ c.toNat = 0x7f then ['\\', 'x'] ++ hexPad 2 c.toNat
  else [c]

/-- `repr(s)`: single quotes, unless the text has a single quote and no double quote. -/
def pyRepr (s : String) : String :=
  let cs := s.toList
  let q := if '\'' ∈ cs ∧ '"' ∉ cs then '"' else '\''
  String.ofList (q :: cs.flatMap (pyReprChar q) ++ [q])

/-- The decimal text of a number tells the number. -/
theorem toString_inj {m n : ℕ} (h : toString m = toString n) : m = n := by
  have hdigits : Nat.toDigits 10 m = Nat.toDigits 10 n := String.ofList_injective h
  rw [← Nat.ofDigitChars_ten_toDigits (n := m), hdigits, Nat.ofDigitChars_ten_toDigits]

/-- So does a numbered name. -/
theorem append_toString_inj {name : String} {m n : ℕ}
    (h : name ++ toString m = name ++ toString n) : m = n := by
  have hlist := congrArg String.toList h
  rw [String.toList_append, String.toList_append] at hlist
  exact toString_inj (String.toList_inj.mp (List.append_cancel_left hlist))

/-- `c.isspace()`. -/
def isSpace (c : Char) : Bool :=
  let n := c.toNat
  (9 ≤ n && n ≤ 13) || (28 ≤ n && n ≤ 32) || n == 0x85 || n == 0xa0 || n == 0x1680 ||
    (0x2000 ≤ n && n ≤ 0x200a) || n == 0x2028 || n == 0x2029 || n == 0x202f || n == 0x205f ||
    n == 0x3000

/-- `s.strip()`. -/
def strip (s : String) : String :=
  String.ofList (((s.toList.dropWhile isSpace).reverse.dropWhile isSpace).reverse)

/-- `repr(x)` for a text that may be `None`. -/
def pyReprOption : Option String → String
  | none => "None"
  | some s => pyRepr s

/-- `s.startswith(p)`. -/
def startswith (s p : String) : Bool := p.toList.isPrefixOf s.toList

theorem startswith_iff {s p : String} : startswith s p = true ↔ p.toList <+: s.toList :=
  List.isPrefixOf_iff_prefix

/-! ## Dates -/

/-- A naive `datetime`. -/
structure Datetime where
  year : ℕ
  month : ℕ
  day : ℕ
  hour : ℕ
  minute : ℕ
  second : ℕ
  microsecond : ℕ
  deriving DecidableEq, Repr

/-- `n` in decimal with at least `width` digits. -/
def decPad (width n : ℕ) : String :=
  let ds := Nat.toDigits 10 n
  String.ofList (List.replicate (width - ds.length) '0' ++ ds)

/-- `d.isoformat()`: the microseconds appear only when there are some. -/
def Datetime.isoformat (d : Datetime) : String :=
  decPad 4 d.year ++ "-" ++ decPad 2 d.month ++ "-" ++ decPad 2 d.day ++ "T" ++
    decPad 2 d.hour ++ ":" ++ decPad 2 d.minute ++ ":" ++ decPad 2 d.second ++
    if d.microsecond = 0 then "" else "." ++ decPad 6 d.microsecond

end Py
