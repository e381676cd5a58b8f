import Mathlib.Data.List.Sort

/-!
# JSON texts

Values of `json` with `json.dumps` in its default format: `", "` and `": "` as separators, and
only ASCII in the text. The text of a value is scanned from outside a string to outside a string
(`whole_render`), and where a colon stands outside a string it is followed by a space. So in
`m:text` the text can be told from a prefix `m` that holds colons and texts of its own
(`Whole.eq_of_append_colon`).
-/

namespace Py

/-! ## Numbers -/

/-- The text without its sign. -/
def unsigned (t : List Char) : List Char := if t.head? = some '-' then t.tail else t

/-- `0|[1-9][0-9]*`. -/
def isNatural (t : List Char) : Bool := t == Nat.toDigits 10 (Nat.ofDigitChars 10 t 0)

/-- `[0-9]+`. -/
def isDigits (t : List Char) : Bool := t != [] && t.all Char.isDigit

/-- `[eE][-+]?[0-9]+`. -/
def isExponent : List Char → Bool
  | 'e' :: t => isDigits t || isDigits t.tail && (t.head? == some '+' || t.head? == some '-')
  | 'E' :: t => isDigits t || isDigits t.tail && (t.head? == some '+' || t.head? == some '-')
  | _ => false

/-- `(\.[0-9]+)?([eE][-+]?[0-9]+)?`, not empty. -/
def isFraction : List Char → Bool
  | '.' :: t =>
    isDigits (t.takeWhile Char.isDigit) &&
      (t.dropWhile Char.isDigit == [] || isExponent (t.dropWhile Char.isDigit))
  | t => isExponent t

/-- The text of a float. -/
def isFloat (t : List Char) : Bool :=
  t == ['N', 'a', 'N'] || unsigned t == ['I', 'n', 'f', 'i', 'n', 'i', 't', 'y'] ||
    isNatural ((unsigned t).takeWhile Char.isDigit) &&
      isFraction ((unsigned t).dropWhile Char.isDigit)

/-- A character of a number or a name. -/
def isWordChar (c : Char) : Bool := c.isAlphanum || c == '+' || c == '-' || c == '.'

/-- The `repr` of a float, `nan` and the infinities in the spelling of JSON. -/
structure FloatRepr where
  text : List Char
  isFloat : isFloat text = true
  plain : ∀ c ∈ text, isWordChar c = true

theorem FloatRepr.text_ne_nil (x : FloatRepr) : x.text ≠ [] := by
  intro h
  have hfloat := x.isFloat
  rw [h] at hfloat
  exact absurd hfloat (by decide)

/-- A value of JSON, the fields of an object in insertion order. -/
inductive Json
  | null
  | bool (b : Bool)
  | int (n : ℤ)
  | float (x : FloatRepr)
  | str (s : String)
  | arr (items : List Json)
  | obj (fields : List (String × Json))

namespace Json

/-! ## Texts -/

/-- `sep.join(texts)`. -/
def join (sep : List Char) : List (List Char) → List Char
  | [] => []
  | [t] => t
  | t :: t' :: ts => t ++ sep ++ join sep (t' :: ts)

/-- `\uXXXX`. -/
def escapeUnit (n : ℕ) : List Char :=
  ['\\', 'u', Nat.digitChar (n / 4096 % 16), Nat.digitChar (n / 256 % 16),
    Nat.digitChar (n / 16 % 16), Nat.digitChar (n % 16)]

/-- A character inside a string; beyond `0xffff` it is a surrogate pair. -/
def escapeChar (c : Char) : List Char :=
  if c = '"' ∨ c = '\\' then ['\\', c]
  else if c = '\n' then ['\\', 'n']
  else if c = '\r' then ['\\', 'r']
  else if c = '\t' then ['\\', 't']
  else if c = '\x0c' then ['\\', 'f']
  else if c = '\x08' then ['\\', 'b']
  else if ' ' ≤ c ∧ c ≤ '~' then [c]
  else if c.toNat < 0x10000 then escapeUnit c.toNat
  else escapeUnit (0xd800 + (c.toNat - 0x10000) / 0x400) ++
    escapeUnit (0xdc00 + (c.toNat - 0x10000) % 0x400)

/-- The text of a string. -/
def quote (s : String) : List Char := '"' :: s.toList.flatMap escapeChar ++ ['"']

/-- The order of the fields: by key, or as they are. -/
def order (sortKeys : Bool) (fields : List (String × List Char)) : List (String × List Char) :=
  if sortKeys then fields.insertionSort (fun f g => f.1 ≤ g.1) else fields

/-- A field from its key and the text of its value. -/
def renderField (field : String × List Char) : List Char := quote field.1 ++ [':', ' '] ++ field.2

mutual

/-- The text of a value, as characters. -/
def render (sortKeys : Bool) : Json → List Char
  | .null => ['n', 'u', 'l', 'l']
  | .bool true => ['t', 'r', 'u', 'e']
  | .bool false => ['f', 'a', 'l', 's', 'e']
  | .int n => (toString n).toList
  | .float x => x.text
  | .str s => quote s
  | .arr items => '[' :: join [',', ' '] (renderItems sortKeys items) ++ [']']
  | .obj fields =>
    '{' :: join [',', ' '] ((order sortKeys (renderFields sortKeys fields)).map renderField) ++
      ['}']

/-- The texts of the items of an array. -/
def renderItems (sortKeys : Bool) : List Json → List (List Char)
  | [] => []
  | j :: js => render sortKeys j :: renderItems sortKeys js

/-- The keys of an object with the texts of their values. -/
def renderFields (sortKeys : Bool) : List (String × Json) → List (String × List Char)
  | [] => []
  | (k, j) :: fields => (k, render sortKeys j) :: renderFields sortKeys fields

end

/-- `json.dumps(j, sort_keys=sortKeys)`. -/
def dumps (sortKeys : Bool) (j : Json) : String := String.ofList (render sortKeys j)

/-- `bool(j)`: empty containers, zeros, `False` and `None` are false. -/
def truthy : Json → Bool
  | .null => false
  | .bool b => b
  | .int n => n != 0
  | .float x => x.text != ['0', '.', '0'] && x.text != ['-', '0', '.', '0']
  | .str s => s != ""
  | .arr items => !items.isEmpty
  | .obj fields => !fields.isEmpty

/-! ## Scanning -/

/-- Where a text is being scanned. `bad` is a character that no JSON text has there. -/
inductive Lex
  | outside
  | colon
  | inside
  | escaped
  | bad
  deriving DecidableEq

/-- The next character. After a colon outside a string comes a space. -/
def Lex.next (l : Lex) (c : Char) : Lex :=
  match l with
  | .outside => if c = '"' then .inside else if c = ':' then .colon
    else if c = '\\' then .bad else .outside
  | .colon => if c = ' ' then .outside else .bad
  | .inside => if c = '"' then .outside else if c = '\\' then .escaped else .inside
  | .escaped => if c = ':' then .bad else .inside
  | .bad => .bad

/-- Scan a text. -/
def scan (l : Lex) (t : List Char) : Lex := t.foldl Lex.next l

@[simp] theorem scan_nil (l : Lex) : scan l [] = l := rfl

@[simp] theorem scan_cons (l : Lex) (c : Char) (t : List Char) :
    scan l (c :: t) = scan (l.next c) t := rfl

@[simp] theorem scan_append (l : Lex) (t t' : List Char) :
    scan l (t ++ t') = scan (scan l t) t' := List.foldl_append

@[simp] theorem scan_bad (t : List Char) : scan .bad t = .bad := by
  induction t with
  | nil => rfl
  | cons c t ih => exact ih

/-- A character that means nothing outside a string. -/
def Plain (c : Char) : Prop := c ≠ '"' ∧ c ≠ ':' ∧ c ≠ '\\'

instance : DecidablePred Plain := fun _ => inferInstanceAs (Decidable (_ ∧ _ ∧ _))

theorem next_outside_of_plain {c : Char} (h : Plain c) : Lex.next .outside c = .outside := by
  unfold Lex.next
  rw [if_neg h.1, if_neg h.2.1, if_neg h.2.2]

theorem scan_outside_of_plain {t : List Char} (h : ∀ c ∈ t, Plain c) :
    scan .outside t = .outside := by
  induction t with
  | nil => rfl
  | cons c t ih =>
    rw [scan_cons, next_outside_of_plain (h c List.mem_cons_self)]
    exact ih fun c' hc' => h c' (List.mem_cons_of_mem _ hc')

theorem plain_of_isAlphanum {c : Char} (h : c.isAlphanum = true) : Plain c := by
  refine ⟨?_, ?_, ?_⟩ <;> · rintro rfl; exact absurd h (by decide)

/-- A text that scans from outside a string to outside a string, and does not start with a space. -/
structure Whole (t : List Char) : Prop where
  scan : scan .outside t = .outside
  head : ∃ c t', t = c :: t' ∧ c ≠ ' '

theorem whole_of_plain {t : List Char} (hne : t ≠ []) (h : ∀ c ∈ t, Plain c ∧ c ≠ ' ') :
    Whole t := by
  refine ⟨scan_outside_of_plain fun c hc => (h c hc).1, ?_⟩
  cases t with
  | nil => exact absurd rfl hne
  | cons c t => exact ⟨c, t, rfl, (h c List.mem_cons_self).2⟩

/-! ### Strings -/

theorem scan_inside_escapeUnit (n : ℕ) : scan .inside (escapeUnit n) = .inside := by
  have hdigit : ∀ d < 16, Lex.next .inside (Nat.digitChar d) = .inside := by decide
  have hd : ∀ k, Lex.next .inside (Nat.digitChar (k % 16)) = .inside := fun k =>
    hdigit _ (Nat.mod_lt k (by omega))
  unfold escapeUnit
  simp only [scan_cons, scan_nil]
  rw [show (Lex.inside.next '\\').next 'u' = .inside from rfl, hd, hd, hd, hd]

theorem scan_inside_escapeChar (c : Char) : scan .inside (escapeChar c) = .inside := by
  unfold escapeChar
  split_ifs with hq hn hr ht hf hb hp hu
  · rcases hq with rfl | rfl <;> rfl
  · rfl
  · rfl
  · rfl
  · rfl
  · rfl
  · rw [not_or] at hq
    simp [Lex.next, hq.1, hq.2]
  · exact scan_inside_escapeUnit _
  · rw [scan_append, scan_inside_escapeUnit, scan_inside_escapeUnit]

theorem scan_inside_escape (cs : List Char) : scan .inside (cs.flatMap escapeChar) = .inside := by
  induction cs with
  | nil => rfl
  | cons c cs ih => rw [List.flatMap_cons, scan_append, scan_inside_escapeChar, ih]

theorem whole_quote (s : String) : Whole (quote s) := by
  refine ⟨?_, '"', _, rfl, by decide⟩
  unfold quote
  rw [List.cons_append, scan_cons, scan_append]
  show scan (scan .inside _) _ = _
  rw [scan_inside_escape]
  rfl

/-! ### Values -/

theorem scan_join {ts : List (List Char)} (h : ∀ t ∈ ts, scan .outside t = .outside) :
    scan .outside (join [',', ' '] ts) = .outside := by
  induction ts with
  | nil => rfl
  | cons t ts ih =>
    have ht := h t List.mem_cons_self
    have hts := ih fun t' ht' => h t' (List.mem_cons_of_mem _ ht')
    cases ts with
    | nil => exact ht
    | cons t' ts =>
      rw [join, scan_append, scan_append, ht]
      exact hts

theorem whole_bracket {o c : Char} (ho : Plain o) (hs : o ≠ ' ') (hc : Plain c)
    {ts : List (List Char)} (h : ∀ t ∈ ts, scan .outside t = .outside) : Whole (o :: join [',', ' '] ts ++ [c]) := by
  refine ⟨?_, o, _, rfl, hs⟩
  rw [List.cons_append, scan_cons, next_outside_of_plain ho, scan_append, scan_join h, scan_cons,
    next_outside_of_plain hc, scan_nil]

theorem scan_renderField {field : String × List Char} (h : Whole field.2) :
    scan .outside (renderField field) = .outside := by
  unfold renderField
  rw [scan_append, scan_append, (whole_quote field.1).scan]
  exact h.scan

theorem mem_order {sortKeys : Bool} {fields : List (String × List Char)}
    {field : String × List Char} : field ∈ order sortKeys fields ↔ field ∈ fields := by
  unfold order
  split_ifs
  · exact List.mem_insertionSort _
  · rfl

theorem whole_toString (n : ℤ) : Whole (toString n).toList := by
  have hdigits : ∀ (m : ℕ), ∀ c ∈ m.repr.toList, Plain c ∧ c ≠ ' ' := by
    intro m c hc
    have hd : c.isDigit = true := by
      rw [Nat.repr, String.toList_ofList] at hc
      exact Nat.isDigit_of_mem_toDigits (by omega) (by omega) hc
    refine ⟨plain_of_isAlphanum (by rw [Char.isAlphanum, hd, Bool.or_true]), ?_⟩
    rintro rfl
    exact absurd hd (by decide)
  have hne : ∀ m : ℕ, m.repr.toList ≠ [] := by
    intro m
    rw [Nat.repr, String.toList_ofList]
    exact Nat.toDigits_ne_nil
  cases n with
  | ofNat m => exact whole_of_plain (hne m) (hdigits m)
  | negSucc m =>
    show Whole ("-" ++ (m + 1).repr).toList
    rw [String.toList_append]
    refine whole_of_plain (by simp) fun c hc => ?_
    rcases List.mem_append.mp hc with hc | hc
    · rw [List.mem_singleton.mp hc]
      decide
    · exact hdigits _ c hc

mutual

theorem whole_render (sortKeys : Bool) : (j : Json) → Whole (render sortKeys j)
  | .null => by
    rw [render]
    exact whole_of_plain (by decide) (by simp [Plain])
  | .bool true => by
    rw [render]
    exact whole_of_plain (by decide) (by simp [Plain])
  | .bool false => by
    rw [render]
    exact whole_of_plain (by decide) (by simp [Plain])
  | .int n => by
    rw [render]
    exact whole_toString n
  | .float x => by
    rw [render]
    refine whole_of_plain x.text_ne_nil fun c hc => ?_
    refine ⟨⟨?_, ?_, ?_⟩, ?_⟩ <;> · rintro rfl; exact absurd (x.plain _ hc) (by decide)
  | .str s => by
    rw [render]
    exact whole_quote s
  | .arr items => by
    rw [render]
    exact whole_bracket (by decide) (by decide) (by decide) (whole_renderItems sortKeys items)
  | .obj fields => by
    rw [render]
    refine whole_bracket (by decide) (by decide) (by decide) fun t ht => ?_
    obtain ⟨field, hf, rfl⟩ := List.mem_map.mp ht
    exact scan_renderField (whole_renderFields sortKeys fields field (mem_order.mp hf))

theorem whole_renderItems (sortKeys : Bool) : (js : List Json) →
    ∀ t ∈ renderItems sortKeys js, scan .outside t = .outside
  | [] => fun t ht => by rw [renderItems] at ht; cases ht
  | j :: js => fun t ht => by
    rw [renderItems] at ht
    rcases List.mem_cons.mp ht with rfl | ht
    · exact (whole_render sortKeys j).scan
    · exact whole_renderItems sortKeys js t ht

theorem whole_renderFields (sortKeys : Bool) : (fields : List (String × Json)) →
    ∀ field ∈ renderFields sortKeys fields, Whole field.2
  | [] => fun field hf => by rw [renderFields] at hf; cases hf
  | (k, j) :: fields => fun field hf => by
    rw [renderFields] at hf
    rcases List.mem_cons.mp hf with rfl | hf
    · exact whole_render sortKeys j
    · exact whole_renderFields sortKeys fields field hf

end

/-! ## Texts behind a colon -/

/-- Two scans of one text of which exactly one is inside a string, unless one has failed. -/
def Swapped (l l' : Lex) : Prop :=
  (l = .inside ∧ (l' = .outside ∨ l' = .colon)) ∨ (l' = .inside ∧ (l = .outside ∨ l = .colon)) ∨
    l = .bad ∨ l' = .bad

theorem Swapped.symm {l l' : Lex} (h : Swapped l l') : Swapped l' l := by
  unfold Swapped at *
  tauto

/-- A quote takes both scans to the other side, and a backslash is bad for the one outside. -/
theorem swapped_next_of_inside {l' : Lex} (h : l' = .outside ∨ l' = .colon) (c : Char) :
    Swapped (Lex.next .inside c) (l'.next c) := by
  rcases h with rfl | rfl
  · by_cases hq : c = '"'
    · subst hq
      exact Or.inr (Or.inl ⟨rfl, Or.inl rfl⟩)
    · by_cases hb : c = '\\'
      · subst hb
        exact Or.inr (Or.inr (Or.inr rfl))
      · refine Or.inl ⟨?_, ?_⟩
        · simp only [Lex.next, if_neg hq, if_neg hb]
        · simp only [Lex.next, if_neg hq, if_neg hb]
          by_cases hc : c = ':'
          · exact Or.inr (if_pos hc)
          · exact Or.inl (if_neg hc)
  · by_cases hs : c = ' '
    · subst hs
      exact Or.inl ⟨rfl, Or.inl rfl⟩
    · refine Or.inr (Or.inr (Or.inr ?_))
      simp only [Lex.next, if_neg hs]

theorem Swapped.next {l l' : Lex} (h : Swapped l l') (c : Char) :
    Swapped (l.next c) (l'.next c) := by
  rcases h with ⟨rfl, h⟩ | ⟨rfl, h⟩ | rfl | rfl
  · exact swapped_next_of_inside h c
  · exact (swapped_next_of_inside h c).symm
  · exact Or.inr (Or.inr (Or.inl rfl))
  · exact Or.inr (Or.inr (Or.inr rfl))

theorem Swapped.scan {l l' : Lex} (h : Swapped l l') (t : List Char) :
    Swapped (scan l t) (Json.scan l' t) := by
  induction t generalizing l l' with
  | nil => exact h
  | cons c t ih => exact ih (h.next c)

/-- No colon of a whole text is right before another whole text. -/
theorem Whole.not_append_colon {p t t' : List Char} (ht : Whole t) (ht' : Whole t') :
    t ≠ p ++ ':' :: t' := by
  rintro rfl
  obtain ⟨c, u, rfl, hc⟩ := ht'.head
  have hscan := ht.scan
  rw [scan_append, scan_cons] at hscan
  have hwhole := ht'.scan
  have hbad : ∀ l : Lex, l.next ':' = .bad → Json.scan (l.next ':') (c :: u) ≠ .outside := by
    intro l hl
    rw [hl, scan_bad]
    decide
  cases hp : Json.scan .outside p with
  | outside =>
    -- outside a string a space would follow
    rw [hp, scan_cons, show Lex.next .outside ':' = .colon from rfl,
      show Lex.next .colon c = .bad from if_neg hc, scan_bad] at hscan
    cases hscan
  | inside =>
    have hs : Swapped .inside .outside := Or.inl ⟨rfl, Or.inl rfl⟩
    have hend := hs.scan (c :: u)
    rw [hp, show Lex.next .inside ':' = .inside from rfl] at hscan
    rw [hscan, hwhole] at hend
    unfold Swapped at hend
    simp at hend
  | colon => exact hbad .colon rfl (hp ▸ hscan)
  | escaped => exact hbad .escaped rfl (hp ▸ hscan)
  | bad => exact hbad .bad rfl (hp ▸ hscan)

/-- **Unique reading.** A whole text behind a colon can be told from the prefix before it, whatever
that is. -/
theorem Whole.eq_of_append_colon {m m' t t' : List Char} (ht : Whole t) (ht' : Whole t')
    (h : m ++ ':' :: t = m' ++ ':' :: t') : m = m' ∧ t = t' := by
  rcases List.append_eq_append_iff.mp h with ⟨p, hm, hp⟩ | ⟨p, hm, hp⟩
  · cases p with
    | nil => exact ⟨by rw [hm, List.append_nil], (List.cons.inj hp).2⟩
    | cons c p => exact absurd (List.cons.inj hp).2 (ht.not_append_colon ht')
  · cases p with
    | nil => exact ⟨by rw [hm, List.append_nil], (List.cons.inj hp).2.symm⟩
    | cons c p => exact absurd (List.cons.inj hp).2 (ht'.not_append_colon ht)

end Json

end Py
