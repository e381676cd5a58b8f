import PyStreamAI.Py.Json
import Mathlib.Data.List.TakeWhile

/-!
# Reading JSON texts

`json.loads`, without its recursion limit, and with `parse_float` keeping the text of a number.
What `json.dumps` writes is read back (`loads_render`), so a value is known by its text, and by its
text with sorted keys up to the order of the keys (`dumps_sorted_inj`).
-/

namespace Py

namespace Json

/-! ## Numbers and names -/

/-- `-?(0|[1-9][0-9]*)`. -/
def isInteger (t : List Char) : Bool := isNatural (unsigned t)

/-- `int(t)`. -/
def toInt (t : List Char) : ℤ :=
  if t.head? = some '-' then -(Nat.ofDigitChars 10 (unsigned t) 0 : ℕ)
  else (Nat.ofDigitChars 10 (unsigned t) 0 : ℕ)

/-- A value without quotes and brackets. -/
def word (t : List Char) : Option Json :=
  if t = ['n', 'u', 'l', 'l'] then some .null
  else if t = ['t', 'r', 'u', 'e'] then some (.bool true)
  else if t = ['f', 'a', 'l', 's', 'e'] then some (.bool false)
  else if isInteger t = true then some (.int (toInt t))
  else if h : isFloat t = true ∧ t.all isWordChar = true then
    some (.float ⟨t, h.1, List.all_eq_true.mp h.2⟩)
  else none

/-! ## Strings -/

/-- `int(c, 16)`. -/
def hexValue (c : Char) : Option ℕ :=
  if '0' ≤ c ∧ c ≤ '9' then some (c.toNat - 48)
  else if 'a' ≤ c ∧ c ≤ 'f' then some (c.toNat - 87)
  else if 'A' ≤ c ∧ c ≤ 'F' then some (c.toNat - 55)
  else none

/-- The four digits of `\uXXXX`. -/
def hexUnit (a b c d : Char) : Option ℕ :=
  match hexValue a, hexValue b, hexValue c, hexValue d with
  | some a, some b, some c, some d => some (4096 * a + 256 * b + 16 * c + d)
  | _, _, _, _ => none

/-- The character behind a backslash. -/
def unescape (c : Char) : Option ℕ :=
  if c = '"' ∨ c = '\\' ∨ c = '/' then some c.toNat
  else if c = 'b' then some 8
  else if c = 'f' then some 12
  else if c = 'n' then some 10
  else if c = 'r' then some 13
  else if c = 't' then some 9
  else none

/-- The code points and the escaped units up to the closing quote. Control characters are
refused. -/
def units : List Char → Option (List ℕ × List Char)
  | [] => none
  | c :: t =>
    if c = '"' then some ([], t)
    else if c = '\\' then
      match t with
      | 'u' :: a :: b :: c :: d :: t =>
        match hexUnit a b c d, units t with
        | some u, some (us, r) => some (u :: us, r)
        | _, _ => none
      | e :: t =>
        match unescape e, units t with
        | some u, some (us, r) => some (u :: us, r)
        | _, _ => none
      | [] => none
    else if c < ' ' then none
    else
      match units t with
      | some (us, r) => some (c.toNat :: us, r)
      | none => none

/-- The characters of the units, the two of a surrogate pair put together. A surrogate of its own
is no character. -/
def characters : List ℕ → Option (List Char)
  | [] => some []
  | u :: us =>
    if 0xd800 ≤ u ∧ u < 0xdc00 then
      match us with
      | v :: us =>
        if 0xdc00 ≤ v ∧ v < 0xe000 then
          (characters us).map (Char.ofNat (0x10000 + (u - 0xd800) * 0x400 + (v - 0xdc00)) :: ·)
        else none
      | [] => none
    else if 0xdc00 ≤ u ∧ u < 0xe000 then none
    else (characters us).map (Char.ofNat u :: ·)

/-- The string behind an opening quote, and the text behind its closing one. -/
def string (t : List Char) : Option (String × List Char) :=
  match units t with
  | some (us, r) => (characters us).map fun cs => (String.ofList cs, r)
  | none => none

/-! ## Values -/

/-- White space. -/
def isWhite (c : Char) : Bool := c == ' ' || c == '\t' || c == '\n' || c == '\r'

/-- The text from its first character that is not white. -/
def skip (t : List Char) : List Char := t.dropWhile isWhite

mutual

/-- A value at the start of a text, and the text behind it. -/
def value : ℕ → List Char → Option (Json × List Char)
  | 0, _ => none
  | n + 1, t =>
    match skip t with
    | [] => none
    | c :: t =>
      if c = '"' then (string t).map fun s => (.str s.1, s.2)
      else if c = '[' then
        if (skip t).head? = some ']' then some (.arr [], (skip t).tail)
        else (items n t).map fun js => (.arr js.1, js.2)
      else if c = '{' then
        if (skip t).head? = some '}' then some (.obj [], (skip t).tail)
        else (fields n t).map fun fs => (.obj fs.1, fs.2)
      else (word ((c :: t).takeWhile isWordChar)).map fun j => (j, (c :: t).dropWhile isWordChar)

/-- The items of an array, and the text behind its bracket. -/
def items : ℕ → List Char → Option (List Json × List Char)
  | 0, _ => none
  | n + 1, t =>
    match value n t with
    | none => none
    | some (j, r) =>
      if (skip r).head? = some ',' then (items n (skip r).tail).map fun js => (j :: js.1, js.2)
      else if (skip r).head? = some ']' then some ([j], (skip r).tail)
      else none

/-- The fields of an object, and the text behind its brace. -/
def fields : ℕ → List Char → Option (List (String × Json) × List Char)
  | 0, _ => none
  | n + 1, t =>
    if (skip t).head? = some '"' then
      match string (skip t).tail with
      | none => none
      | some (k, r) =>
        if (skip r).head? = some ':' then
          match value n (skip r).tail with
          | none => none
          | some (j, r) =>
            if (skip r).head? = some ',' then
              (fields n (skip r).tail).map fun fs => ((k, j) :: fs.1, fs.2)
            else if (skip r).head? = some '}' then some ([(k, j)], (skip r).tail)
            else none
        else none
    else none

end

/-- `json.loads(t)`. An object keeps all its fields, also those of one name. -/
def loads (t : List Char) : Option Json :=
  match value (t.length + 1) t with
  | some (j, r) => if skip r = [] then some j else none
  | none => none

/-- `d[name]` of the `dict` of an object: the last field of a name is the one it keeps. -/
def field? (name : String) : Json → Option Json
  | .obj fields => (fields.reverse.find? fun f => f.1 = name).map Prod.snd
  | _ => none

/-! ## Strings are read back -/

theorem hexValue_digitChar {d : ℕ} (h : d < 16) : hexValue (Nat.digitChar d) = some d := by
  have hall : ∀ d < 16, hexValue (Nat.digitChar d) = some d := by decide
  exact hall d h

theorem units_escapeUnit {n : ℕ} (h : n < 0x10000) (t : List Char) :
    units (escapeUnit n ++ t) = (units t).map fun p => (n :: p.1, p.2) := by
  have hd : ∀ k, hexValue (Nat.digitChar (k % 16)) = some (k % 16) := fun k =>
    hexValue_digitChar (Nat.mod_lt k (by omega))
  have hn : 4096 * (n / 4096 % 16) + 256 * (n / 256 % 16) + 16 * (n / 16 % 16) + n % 16 = n := by
    omega
  unfold escapeUnit
  simp only [List.cons_append, List.nil_append]
  rw [units, if_neg (by decide), if_pos rfl]
  simp only [hexUnit, hd, hn]
  cases units t <;> rfl

theorem units_escape {e : Char} {u : ℕ} (he : e ≠ 'u') (h : unescape e = some u) (t : List Char) :
    units ('\\' :: e :: t) = (units t).map fun p => (u :: p.1, p.2) := by
  rw [units, if_neg (by decide), if_pos rfl, h]
  · cases units t <;> rfl
  · exact fun _ _ _ _ _ hu _ => he hu

theorem units_plain {c : Char} (hq : c ≠ '"') (hb : c ≠ '\\') (hc : ' ' ≤ c) (t : List Char) :
    units (c :: t) = (units t).map fun p => (c.toNat :: p.1, p.2) := by
  rw [units.eq_def]
  dsimp only
  rw [if_neg hq, if_neg hb, if_neg (Char.not_lt.mpr hc)]
  cases units t <;> rfl

/-- The units of a character written as an escape: two for a surrogate pair. -/
def unitsOf (c : Char) : List ℕ :=
  if c.toNat < 0x10000 then [c.toNat]
  else [0xd800 + (c.toNat - 0x10000) / 0x400, 0xdc00 + (c.toNat - 0x10000) % 0x400]

theorem toNat_range (c : Char) :
    c.toNat < 0xd800 ∨ (0xdfff < c.toNat ∧ c.toNat < 0x110000) := c.valid

theorem units_escapeChar (c : Char) (t : List Char) :
    units (escapeChar c ++ t) = (units t).map fun p => (unitsOf c ++ p.1, p.2) := by
  have hrange := toNat_range c
  unfold escapeChar
  split_ifs with hq hn hr ht hf hb hp hu
  · rcases hq with rfl | rfl
    · exact units_escape (by decide) rfl t
    · exact units_escape (by decide) rfl t
  · subst hn; exact units_escape (by decide) rfl t
  · subst hr; exact units_escape (by decide) rfl t
  · subst ht; exact units_escape (by decide) rfl t
  · subst hf; exact units_escape (by decide) rfl t
  · subst hb; exact units_escape (by decide) rfl t
  · have hlt : c.toNat < 0x10000 := by
      have hle : c.toNat ≤ '~'.toNat := hp.2
      have : '~'.toNat = 126 := rfl
      omega
    rw [not_or] at hq
    unfold unitsOf
    rw [if_pos hlt]
    exact units_plain hq.1 hq.2 hp.1 t
  · unfold unitsOf
    rw [if_pos hu]
    exact units_escapeUnit hu t
  · unfold unitsOf
    rw [if_neg hu, List.append_assoc, units_escapeUnit (by omega), units_escapeUnit (by omega)]
    cases units t <;> rfl

theorem characters_unitsOf (c : Char) (us : List ℕ) :
    characters (unitsOf c ++ us) = (characters us).map (c :: ·) := by
  have hrange := toNat_range c
  unfold unitsOf
  split_ifs with hu
  · rw [List.singleton_append, characters.eq_def]
    dsimp only
    rw [if_neg (by omega), if_neg (by omega), Char.ofNat_toNat]
  · rw [List.cons_append, List.singleton_append, characters, if_pos (by omega), if_pos (by omega)]
    have hc : 0x10000 + (0xd800 + (c.toNat - 0x10000) / 0x400 - 0xd800) * 0x400 +
        (0xdc00 + (c.toNat - 0x10000) % 0x400 - 0xdc00) = c.toNat := by omega
    rw [hc, Char.ofNat_toNat]

theorem units_quote (t : List Char) : units ('"' :: t) = some ([], t) := by
  rw [units.eq_def]
  rfl

theorem units_escape_append (cs t : List Char) :
    units (cs.flatMap escapeChar ++ '"' :: t) = some (cs.flatMap unitsOf, t) := by
  induction cs with
  | nil => exact units_quote t
  | cons c cs ih =>
    rw [List.flatMap_cons, List.append_assoc, units_escapeChar, ih, List.flatMap_cons]
    rfl

theorem characters_flatMap (cs : List Char) : characters (cs.flatMap unitsOf) = some cs := by
  induction cs with
  | nil => rw [List.flatMap_nil, characters]
  | cons c cs ih => rw [List.flatMap_cons, characters_unitsOf, ih, Option.map_some]

/-- A string is read back. -/
theorem string_quote (s : String) (t : List Char) :
    string (s.toList.flatMap escapeChar ++ '"' :: t) = some (s, t) := by
  unfold string
  rw [units_escape_append]
  dsimp only
  rw [characters_flatMap, Option.map_some, String.ofList_toList]

/-! ## Numbers are read back -/

theorem isDigit_of_isNatural {t : List Char} (h : isNatural t = true) :
    ∀ c ∈ t, c.isDigit = true := by
  intro c hc
  rw [eq_of_beq h] at hc
  exact Nat.isDigit_of_mem_toDigits (by omega) (by omega) hc

theorem head?_ne_minus {t : List Char} (h : ∀ c ∈ t, c.isDigit = true) : t.head? ≠ some '-' :=
  fun hc => absurd (h _ (List.mem_of_mem_head? hc)) (by decide)

theorem isNatural_toDigits (m : ℕ) : isNatural (Nat.toDigits 10 m) = true := by
  unfold isNatural
  rw [Nat.ofDigitChars_ten_toDigits, beq_self_eq_true]

theorem toInt_toString (n : ℤ) :
    isInteger (toString n).toList = true ∧ toInt (toString n).toList = n := by
  unfold isInteger toInt unsigned
  cases n with
  | ofNat m =>
    have htext : (toString (Int.ofNat m)).toList = Nat.toDigits 10 m := String.toList_ofList
    have hsign := head?_ne_minus (isDigit_of_isNatural (isNatural_toDigits m))
    rw [htext, if_neg hsign, if_neg hsign, Nat.ofDigitChars_ten_toDigits]
    exact ⟨isNatural_toDigits m, rfl⟩
  | negSucc m =>
    have htext : (toString (Int.negSucc m)).toList = '-' :: Nat.toDigits 10 (m + 1) := by
      show ("-" ++ (m + 1).repr).toList = _
      rw [String.toList_append, Nat.repr, String.toList_ofList, String.toList_ofList,
        List.singleton_append]
    rw [htext, List.head?_cons, if_pos rfl, if_pos rfl, List.tail_cons,
      Nat.ofDigitChars_ten_toDigits]
    exact ⟨isNatural_toDigits (m + 1), rfl⟩

/-- Behind the digits of a float there is more. -/
theorem isInteger_of_isFloat {t : List Char} (h : isFloat t = true) : isInteger t = false := by
  rw [Bool.eq_false_iff]
  intro hint
  have hdigits := isDigit_of_isNatural hint
  have hdrop : (unsigned t).dropWhile Char.isDigit = [] := List.dropWhile_eq_nil_iff.mpr hdigits
  unfold isFloat at h
  rw [hdrop, Bool.or_eq_true, Bool.or_eq_true] at h
  rcases h with (h | h) | h
  · rw [eq_of_beq h] at hint
    exact absurd hint (by decide)
  · rw [isInteger, eq_of_beq h] at hint
    exact absurd hint (by decide)
  · rw [Bool.and_eq_true] at h
    exact absurd h.2 (by decide)

theorem word_int {t : List Char} (h : isInteger t = true) : word t = some (.int (toInt t)) := by
  unfold word
  rw [if_neg, if_neg, if_neg, if_pos h]
  all_goals
    rintro rfl
    exact absurd h (by decide)

theorem word_float (x : FloatRepr) : word x.text = some (.float x) := by
  have hfloat := x.isFloat
  have hint := isInteger_of_isFloat hfloat
  unfold word
  rw [if_neg, if_neg, if_neg, if_neg (by rw [hint]; decide), dif_pos ⟨x.isFloat, List.all_eq_true.mpr x.plain⟩]
  all_goals
    intro he
    rw [he] at hfloat
    exact absurd hfloat (by decide)

/-! ## Values are read back -/

/-- What ends a number or a name. -/
def Follow (t : List Char) : Prop := ∀ c ∈ t.head?, isWordChar c = false

/-- The first character of a value. -/
def isStart (c : Char) : Bool := isWordChar c || c == '"' || c == '[' || c == '{'

theorem skip_cons {c : Char} (h : isWhite c = false) (t : List Char) : skip (c :: t) = c :: t :=
  List.dropWhile_cons_of_neg (by rw [h]; decide)

theorem isWhite_of_isStart {c : Char} (h : isStart c = true) : isWhite c = false := by
  rw [Bool.eq_false_iff]
  intro hw
  unfold isWhite at hw
  simp only [Bool.or_eq_true, beq_iff_eq] at hw
  rcases hw with ((rfl | rfl) | rfl) | rfl <;> exact absurd h (by decide)

theorem skip_space (t : List Char) : skip (' ' :: t) = skip t := List.dropWhile_cons_of_pos rfl

theorem value_space (n : ℕ) (t : List Char) : value n (' ' :: t) = value n t := by
  cases n with
  | zero => rw [value, value]
  | succ n => rw [value, value, skip_space]

theorem fields_space (n : ℕ) (t : List Char) : fields n (' ' :: t) = fields n t := by
  cases n with
  | zero => rw [fields, fields]
  | succ n => rw [fields.eq_def, fields.eq_def]; dsimp only; rw [skip_space]

theorem items_space (n : ℕ) (t : List Char) : items n (' ' :: t) = items n t := by
  cases n with
  | zero => rw [items, items]
  | succ n => rw [items.eq_def, items.eq_def]; dsimp only; rw [value_space]

theorem value_word {t : List Char} {j : Json} (hne : t ≠ []) (ht : ∀ c ∈ t, isWordChar c = true)
    (hj : word t = some j) (n : ℕ) (r : List Char) (hn : t.length ≤ n) (hr : Follow r) :
    value n (t ++ r) = some (j, r) := by
  have htake : (t ++ r).takeWhile isWordChar = t := by
    rw [List.takeWhile_append_of_pos ht]
    cases r with
    | nil => exact List.append_nil t
    | cons c r => rw [List.takeWhile_cons_of_neg (by rw [hr c rfl]; decide), List.append_nil]
  have hdrop : (t ++ r).dropWhile isWordChar = r := by
    rw [List.dropWhile_append_of_pos ht]
    cases r with
    | nil => rfl
    | cons c r => exact List.dropWhile_cons_of_neg (by rw [hr c rfl]; decide)
  obtain ⟨c, t, rfl⟩ := List.exists_cons_of_ne_nil hne
  obtain ⟨n, rfl⟩ := Nat.exists_eq_add_of_le' (Nat.le_trans (Nat.le_add_left 1 t.length) hn)
  have hc := ht c List.mem_cons_self
  have hother : ∀ d : Char, isWordChar d = false → c ≠ d := by
    rintro d hd rfl
    rw [hd] at hc
    cases hc
  rw [List.cons_append] at htake hdrop ⊢
  rw [value, skip_cons (isWhite_of_isStart (by rw [isStart, hc]; rfl))]
  dsimp only
  rw [if_neg (hother _ rfl), if_neg (hother _ rfl), if_neg (hother _ rfl), htake, hdrop, hj]
  rfl

theorem isWordChar_of_isDigit {c : Char} (h : c.isDigit = true) : isWordChar c = true := by
  unfold isWordChar Char.isAlphanum
  rw [h, Bool.or_true]
  rfl

theorem isWordChar_of_mem_toString {n : ℤ} : ∀ c ∈ (toString n).toList, isWordChar c = true := by
  intro c hc
  have hint := isDigit_of_isNatural (toInt_toString n).1
  unfold unsigned at hint
  split_ifs at hint with hs
  · rw [List.eq_cons_of_mem_head? hs] at hc
    rcases List.mem_cons.mp hc with rfl | hc
    · rfl
    · exact isWordChar_of_isDigit (hint c hc)
  · exact isWordChar_of_isDigit (hint c hc)

theorem exists_render (j : Json) : ∃ c t, render false j = c :: t ∧ isStart c = true := by
  have hwords : ∀ t : List Char, t ≠ [] → (∀ c ∈ t, isWordChar c = true) →
      ∃ c t', t = c :: t' ∧ isStart c = true := by
    intro t hne ht
    obtain ⟨c, t, rfl⟩ := List.exists_cons_of_ne_nil hne
    exact ⟨c, t, rfl, by rw [isStart, ht c List.mem_cons_self]; rfl⟩
  cases j with
  | null => exact ⟨'n', _, by rw [render], by decide⟩
  | bool b => cases b <;> · rw [render]; exact ⟨_, _, rfl, by decide⟩
  | int n =>
    rw [render]
    refine hwords _ (fun h => ?_) isWordChar_of_mem_toString
    have hint := (toInt_toString n).1
    rw [h] at hint
    exact absurd hint (by decide)
  | float x =>
    rw [render]
    exact hwords _ x.text_ne_nil x.plain
  | str s => exact ⟨'"', _, by rw [render, quote, List.cons_append], by decide⟩
  | arr items => exact ⟨'[', _, by rw [render, List.cons_append], by decide⟩
  | obj fields => exact ⟨'{', _, by rw [render, List.cons_append], by decide⟩

theorem follow_cons {c : Char} (h : isWordChar c = false) (t : List Char) : Follow (c :: t) := by
  rintro d hd
  obtain rfl := Option.some.inj hd
  exact h

theorem value_quote (n : ℕ) (s : String) (r : List Char) :
    value (n + 1) (quote s ++ r) = some (.str s, r) := by
  unfold quote
  rw [List.cons_append, List.cons_append, List.append_assoc, List.singleton_append, value,
    skip_cons rfl]
  dsimp only
  rw [if_pos rfl, string_quote]
  rfl

theorem join_cons {ts : List (List Char)} (h : ts ≠ []) (sep t : List Char) :
    join sep (t :: ts) = t ++ sep ++ join sep ts := by
  obtain ⟨t', ts, rfl⟩ := List.exists_cons_of_ne_nil h
  rfl

theorem exists_join_cons (sep t : List Char) (ts : List (List Char)) :
    ∃ u, join sep (t :: ts) = t ++ u := by
  cases ts with
  | nil => exact ⟨[], (List.append_nil t).symm⟩
  | cons t' ts => exact ⟨_, List.append_assoc t sep _⟩

/-- A field that is followed by another one, or by the brace. -/
theorem fields_cons {n : ℕ} {t r : List Char} {j : Json} (k : String)
    (h : value n t = some (j, r)) :
    fields (n + 1) (quote k ++ [':', ' '] ++ t) =
      if (skip r).head? = some ',' then
        (fields n (skip r).tail).map fun fs => ((k, j) :: fs.1, fs.2)
      else if (skip r).head? = some '}' then some ([(k, j)], (skip r).tail)
      else none := by
  have hcolon : skip ([':', ' '] ++ t) = ':' :: ' ' :: t := rfl
  unfold quote
  rw [List.append_assoc, List.cons_append, List.cons_append, List.append_assoc,
    List.singleton_append, fields, skip_cons rfl, List.head?_cons, if_pos rfl, List.tail_cons,
    string_quote]
  dsimp only
  rw [hcolon, List.head?_cons, if_pos rfl, List.tail_cons, value_space, h]

mutual

/-- A value is read back from its text, whatever text follows that cannot be part of it. -/
theorem value_render : (j : Json) → ∀ (n : ℕ) (r : List Char), (render false j).length ≤ n →
    Follow r → value n (render false j ++ r) = some (j, r)
  | .null => by
    rw [render]
    exact value_word (by decide) (List.all_eq_true.mp rfl) rfl
  | .bool true => by
    rw [render]
    exact value_word (by decide) (List.all_eq_true.mp rfl) rfl
  | .bool false => by
    rw [render]
    exact value_word (by decide) (List.all_eq_true.mp rfl) rfl
  | .int k => by
    rw [render]
    obtain ⟨hint, hk⟩ := toInt_toString k
    refine value_word (fun h => ?_) isWordChar_of_mem_toString (by rw [word_int hint, hk])
    rw [h] at hint
    exact absurd hint (by decide)
  | .float x => by
    rw [render]
    exact value_word x.text_ne_nil x.plain (word_float x)
  | .str s => fun n r hn _ => by
    rw [render] at hn ⊢
    obtain ⟨n, rfl⟩ := Nat.exists_eq_add_of_le' (Nat.le_trans (Nat.le_add_left 1 _) hn)
    exact value_quote n s r
  | .arr [] => fun n r hn _ => by
    obtain ⟨n, rfl⟩ := Nat.exists_eq_add_of_le' (Nat.le_trans (Nat.le_add_left 1 1) hn)
    rfl
  | .arr (j :: js) => fun n r hn _ => by
    rw [render, List.cons_append, List.length_cons, List.length_append, List.length_singleton] at hn
    obtain ⟨n, rfl⟩ := Nat.exists_eq_add_of_le' (Nat.le_trans (Nat.le_add_left 1 _) hn)
    obtain ⟨c, t, hj, hc⟩ := exists_render j
    have hitems := items_render (j :: js) (by simp) n r (by omega)
    obtain ⟨u, hu⟩ := exists_join_cons [',', ' '] (render false j) (renderItems false js)
    rw [render, List.cons_append, List.cons_append, List.append_assoc, List.singleton_append, value,
      skip_cons rfl]
    dsimp only
    rw [if_neg (by decide), if_pos rfl, if_neg, hitems]
    · rfl
    · rw [renderItems, hu, hj, List.cons_append, List.cons_append,
        skip_cons (isWhite_of_isStart hc), List.head?_cons]
      rintro he
      obtain rfl := Option.some.inj he
      exact absurd hc (by decide)
  | .obj [] => fun n r hn _ => by
    obtain ⟨n, rfl⟩ := Nat.exists_eq_add_of_le' (Nat.le_trans (Nat.le_add_left 1 1) hn)
    rfl
  | .obj ((k, j) :: fs) => fun n r hn _ => by
    rw [render, List.cons_append, List.length_cons, List.length_append, List.length_singleton] at hn
    obtain ⟨n, rfl⟩ := Nat.exists_eq_add_of_le' (Nat.le_trans (Nat.le_add_left 1 _) hn)
    have hfields := fields_render ((k, j) :: fs) (by simp) n r (Nat.lt_of_succ_lt_succ hn)
    obtain ⟨u, hu⟩ := exists_join_cons [',', ' '] (renderField (k, render false j))
      ((renderFields false fs).map renderField)
    rw [render, List.cons_append, List.cons_append, List.append_assoc, List.singleton_append, value,
      skip_cons rfl]
    dsimp only
    rw [if_neg (by decide), if_neg (by decide), if_pos rfl, if_neg]
    · show Option.map _ (fields n (join [',', ' ']
        ((renderFields false ((k, j) :: fs)).map renderField) ++ '}' :: r)) = _
      rw [hfields]
      rfl
    · show (skip (join [',', ' '] ((renderFields false ((k, j) :: fs)).map renderField) ++
        '}' :: r)).head? ≠ _
      rw [renderFields, List.map_cons, hu]
      exact fun he => absurd (Option.some.inj he) (by decide)

theorem items_render : (js : List Json) → js ≠ [] → ∀ (n : ℕ) (r : List Char),
    (join [',', ' '] (renderItems false js)).length < n →
      items n (join [',', ' '] (renderItems false js) ++ ']' :: r) = some (js, r)
  | [] => fun hne => absurd rfl hne
  | [j] => fun _ n r hn => by
    obtain ⟨n, rfl⟩ := Nat.exists_eq_add_of_le' (Nat.zero_lt_of_lt hn)
    have hj := value_render j n (']' :: r) (Nat.le_of_lt_succ hn) (follow_cons rfl r)
    rw [renderItems, renderItems, join, items, hj]
    rfl
  | j :: j' :: js => fun _ n r hn => by
    obtain ⟨n, rfl⟩ := Nat.exists_eq_add_of_le' (Nat.zero_lt_of_lt hn)
    rw [renderItems, join_cons (by simp [renderItems])] at hn ⊢
    rw [List.length_append, List.length_append, List.length_cons] at hn
    have hj := fun r' => value_render j n (',' :: r') (by omega) (follow_cons rfl r')
    have hjs := items_render (j' :: js) (by simp) n r (by omega)
    rw [List.append_assoc, List.append_assoc, List.cons_append, items, hj]
    show Option.map _ (items n (' ' :: (_ ++ ']' :: r))) = _
    rw [items_space, hjs]
    rfl

theorem fields_render : (fs : List (String × Json)) → fs ≠ [] → ∀ (n : ℕ) (r : List Char),
    (join [',', ' '] ((renderFields false fs).map renderField)).length < n →
      fields n (join [',', ' '] ((renderFields false fs).map renderField) ++ '}' :: r) =
        some (fs, r)
  | [] => fun hne => absurd rfl hne
  | [(k, j)] => fun _ n r hn => by
    obtain ⟨n, rfl⟩ := Nat.exists_eq_add_of_le' (Nat.zero_lt_of_lt hn)
    rw [renderFields, renderFields, List.map_singleton, join, renderField, List.length_append] at hn
    have hj := value_render j n ('}' :: r) (by dsimp only at hn; omega) (follow_cons rfl r)
    rw [renderFields, renderFields, List.map_singleton, join, renderField, List.append_assoc,
      fields_cons k hj]
    rfl
  | (k, j) :: f :: fs => fun _ n r hn => by
    obtain ⟨n, rfl⟩ := Nat.exists_eq_add_of_le' (Nat.zero_lt_of_lt hn)
    rw [renderFields, List.map_cons, join_cons (by simp [renderFields]), renderField] at hn ⊢
    rw [List.length_append, List.length_append, List.length_append] at hn
    have hsep : [',', ' '].length = 2 := rfl
    dsimp only at hn
    have hj := fun r' => value_render j n (',' :: r') (by omega) (follow_cons rfl r')
    have hfs := fields_render (f :: fs) (by simp) n r (by omega)
    rw [List.append_assoc, List.append_assoc, List.append_assoc, List.cons_append,
      fields_cons k (hj _)]
    show Option.map _ (fields n (' ' :: (_ ++ '}' :: r))) = _
    rw [fields_space, hfs]
    rfl

end

/-- **Round trip.** -/
theorem loads_render (j : Json) : loads (render false j) = some j := by
  have hvalue := value_render j ((render false j).length + 1) [] (Nat.le_succ _)
    (fun _ hc => by cases hc)
  rw [List.append_nil] at hvalue
  unfold loads
  rw [hvalue]
  rfl

theorem render_inj {j j' : Json} (h : render false j = render false j') : j = j' := by
  have hj := loads_render j
  rw [h, loads_render] at hj
  exact (Option.some.inj hj).symm

/-! ## Key order -/

mutual

/-- A value with the fields of its objects in the order of their keys. -/
def sortKeys : Json → Json
  | .arr items => .arr (sortItems items)
  | .obj fields => .obj ((sortFields fields).insertionSort fun f g => f.1 ≤ g.1)
  | j => j

/-- The items of an array, sorted each. -/
def sortItems : List Json → List Json
  | [] => []
  | j :: js => sortKeys j :: sortItems js

/-- The fields of an object, each with a sorted value. -/
def sortFields : List (String × Json) → List (String × Json)
  | [] => []
  | (k, j) :: fields => (k, sortKeys j) :: sortFields fields

end

theorem renderFields_eq_map (b : Bool) (fields : List (String × Json)) :
    renderFields b fields = fields.map fun f => (f.1, render b f.2) := by
  induction fields with
  | nil => rw [renderFields, List.map_nil]
  | cons f fields ih => rw [renderFields, ih, List.map_cons]

mutual

theorem render_sortKeys : (j : Json) → render false (sortKeys j) = render true j
  | .null => rfl
  | .bool b => by cases b <;> rfl
  | .int _ => rfl
  | .float _ => rfl
  | .str _ => rfl
  | .arr items => by rw [sortKeys, render, render, renderItems_sortItems items]
  | .obj fields => by
    have hsort : renderFields false ((sortFields fields).insertionSort fun f g => f.1 ≤ g.1) =
        (renderFields true fields).insertionSort fun f g => f.1 ≤ g.1 := by
      rw [← renderFields_sortFields fields, renderFields_eq_map, renderFields_eq_map]
      exact List.map_insertionSort _ _ _ _ fun _ _ _ _ => Iff.rfl
    rw [sortKeys, render, render, hsort]
    rfl

theorem renderItems_sortItems :
    (js : List Json) → renderItems false (sortItems js) = renderItems true js
  | [] => rfl
  | j :: js => by
    rw [sortItems, renderItems, renderItems, render_sortKeys j, renderItems_sortItems js]

theorem renderFields_sortFields : (fields : List (String × Json)) →
    renderFields false (sortFields fields) = renderFields true fields
  | [] => rfl
  | (k, j) :: fields => by
    rw [sortFields, renderFields, renderFields, render_sortKeys j, renderFields_sortFields fields]

end

/-- Texts with sorted keys are equal for values that are equal up to the order of keys, and for
no others. -/
theorem dumps_sorted_inj {j j' : Json} : j.dumps true = j'.dumps true ↔ j.sortKeys = j'.sortKeys := by
  unfold dumps
  rw [← render_sortKeys, ← render_sortKeys]
  exact ⟨fun h => render_inj (String.ofList_injective h), fun h => by rw [h]⟩

end Json

end Py
