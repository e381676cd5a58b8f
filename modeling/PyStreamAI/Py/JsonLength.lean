import PyStreamAI.Py.JsonParse

/-!
# Strings and the length of their texts

A string without escapes is read as it stands (`string_raw`). Every escape makes the text longer
than the string, so a string as long as its text has none (`string_length`), and a string that is a
field of an object is shorter than the text of the fields (`length_lt_of_mem_fields`).
-/

namespace Py

namespace Json

/-! ## Raw strings -/

/-- A character that stands for itself inside a string. -/
def IsRaw (c : Char) : Prop := c ≠ '"' ∧ c ≠ '\\' ∧ ' ' ≤ c

instance : DecidablePred IsRaw := fun _ => inferInstanceAs (Decidable (_ ∧ _ ∧ _))

theorem units_raw {cs : List Char} (h : ∀ c ∈ cs, IsRaw c) (t : List Char) :
    units (cs ++ '"' :: t) = some (cs.map Char.toNat, t) := by
  induction cs with
  | nil => exact units_quote t
  | cons c cs ih =>
    obtain ⟨hq, hb, hc⟩ := h c List.mem_cons_self
    rw [List.cons_append, units_plain hq hb hc, ih fun d hd => h d (List.mem_cons_of_mem c hd)]
    rfl

theorem characters_map_toNat (cs : List Char) : characters (cs.map Char.toNat) = some cs := by
  induction cs with
  | nil => rw [List.map_nil, characters]
  | cons c cs ih =>
    have hrange := toNat_range c
    rw [List.map_cons, characters.eq_def]
    dsimp only
    rw [if_neg (by omega), if_neg (by omega), ih, Char.ofNat_toNat, Option.map_some]

/-- A string without escapes is read as it stands. -/
theorem string_raw {cs : List Char} (h : ∀ c ∈ cs, IsRaw c) (t : List Char) :
    string (cs ++ '"' :: t) = some (String.ofList cs, t) := by
  unfold string
  rw [units_raw h]
  dsimp only
  rw [characters_map_toNat, Option.map_some]

theorem value_quoted (n : ℕ) (t : List Char) :
    value (n + 1) ('"' :: t) = (string t).map fun s => (.str s.1, s.2) := by
  rw [value, skip_cons rfl]
  exact if_pos rfl

theorem loads_object {t : List Char} (h : (skip t).head? ≠ some '\x7d') :
    loads ('\x7b' :: t) =
      (fields (t.length + 1) t).bind fun p => if skip p.2 = [] then some (.obj p.1) else none := by
  unfold loads
  rw [List.length_cons, value, skip_cons rfl]
  dsimp only
  rw [if_neg (by decide), if_neg (by decide), if_pos rfl, if_neg h]
  cases fields (t.length + 1) t <;> rfl

/-- What is read and what is left fit into the text, exactly only where nothing was escaped. -/
theorem units_length {t : List Char} {us : List ℕ} {r : List Char} (h : units t = some (us, r)) :
    us.length + 1 + r.length ≤ t.length ∧
      (us.length + 1 + r.length = t.length →
        ∃ cs, t = cs ++ '"' :: r ∧ us = cs.map Char.toNat ∧ ∀ c ∈ cs, IsRaw c) := by
  fun_induction units t generalizing us r with
  | case2 t =>
    obtain ⟨rfl, rfl⟩ := Prod.mk.inj (Option.some.inj h)
    refine ⟨?_, fun _ => ⟨[], rfl, rfl, fun c hc => by cases hc⟩⟩
    rw [List.length_nil, List.length_cons]
    omega
  | case3 a b c d t u us' r' hunits hhex _ ih =>
    obtain ⟨rfl, rfl⟩ := Prod.mk.inj (Option.some.inj h)
    obtain ⟨hle, -⟩ := ih hunits
    simp only [List.length_cons]
    exact ⟨by omega, fun he => absurd he (by omega)⟩
  | case5 e t _ u us' r' hunits hesc _ ih =>
    obtain ⟨rfl, rfl⟩ := Prod.mk.inj (Option.some.inj h)
    obtain ⟨hle, -⟩ := ih hunits
    simp only [List.length_cons]
    exact ⟨by omega, fun he => absurd he (by omega)⟩
  | case9 c t hq hb hc us' r' hunits ih =>
    obtain ⟨rfl, rfl⟩ := Prod.mk.inj (Option.some.inj h)
    obtain ⟨hle, htight⟩ := ih hunits
    simp only [List.length_cons]
    refine ⟨by omega, fun he => ?_⟩
    obtain ⟨cs, rfl, rfl, hraw⟩ := htight (by omega)
    refine ⟨c :: cs, rfl, rfl, fun d hd => ?_⟩
    rcases List.mem_cons.mp hd with rfl | hd
    · exact ⟨hq, hb, Char.not_lt.mp hc⟩
    · exact hraw d hd
  | _ => cases h

theorem characters_length {us : List ℕ} {cs : List Char} (h : characters us = some cs) :
    cs.length ≤ us.length := by
  fun_induction characters us generalizing cs with
  | case1 =>
    obtain rfl := Option.some.inj h
    exact Nat.le_refl 0
  | case2 u _ v us _ ih =>
    obtain ⟨cs', hcs', rfl⟩ := Option.map_eq_some_iff.mp h
    have hle := ih hcs'
    simp only [List.length_cons]
    omega
  | case6 u us _ _ ih =>
    obtain ⟨cs', hcs', rfl⟩ := Option.map_eq_some_iff.mp h
    have hle := ih hcs'
    simp only [List.length_cons]
    omega
  | _ => cases h

/-- A string that is as long as its text stands there as it is. -/
theorem string_length {t : List Char} {s : String} {r : List Char} (h : string t = some (s, r)) :
    s.toList.length + 1 + r.length ≤ t.length ∧
      (s.toList.length + 1 + r.length = t.length →
        t = s.toList ++ '"' :: r ∧ ∀ c ∈ s.toList, IsRaw c) := by
  unfold string at h
  cases hunits : units t with
  | none =>
    rw [hunits] at h
    cases h
  | some p =>
    obtain ⟨us, r'⟩ := p
    rw [hunits] at h
    obtain ⟨cs, hcs, he⟩ := Option.map_eq_some_iff.mp h
    obtain ⟨rfl, rfl⟩ := Prod.mk.inj he
    obtain ⟨hle, htight⟩ := units_length hunits
    have hchars := characters_length hcs
    rw [String.toList_ofList]
    refine ⟨by omega, fun heq => ?_⟩
    obtain ⟨cs', ht, rfl, hraw⟩ := htight (by omega)
    rw [characters_map_toNat] at hcs
    obtain rfl := Option.some.inj hcs
    exact ⟨ht, hraw⟩

/-! ## What is left -/

theorem skip_length (t : List Char) : (skip t).length ≤ t.length := List.length_dropWhile_le _ _

theorem tail_skip_length {t : List Char} {c : Char} (h : (skip t).head? = some c) :
    (skip t).tail.length + 1 ≤ t.length := by
  have hle := skip_length t
  rw [List.eq_cons_of_mem_head? h] at hle ⊢
  exact hle

/-- Behind a value, behind items and behind fields the text is not longer than before. -/
structure Shrinks (n : ℕ) : Prop where
  value : ∀ {t j r}, value n t = some (j, r) → r.length ≤ t.length
  items : ∀ {t js r}, items n t = some (js, r) → r.length ≤ t.length
  fields : ∀ {t fs r}, fields n t = some (fs, r) → r.length ≤ t.length

theorem value_shrinks {n : ℕ} (ih : Shrinks n) {t : List Char} {j : Json} {r : List Char}
    (h : value (n + 1) t = some (j, r)) : r.length ≤ t.length := by
  have hskip := skip_length t
  rw [value] at h
  cases hs : skip t with
  | nil =>
    rw [hs] at h
    cases h
  | cons c t' =>
    have ht' := skip_length t'
    have htail : (skip t').tail.length ≤ (skip t').length := by
      rw [List.length_tail]
      exact Nat.sub_le _ _
    rw [hs, List.length_cons] at hskip
    rw [hs] at h
    dsimp only at h
    split_ifs at h with hq ha he ho he
    · obtain ⟨p, hp, hpair⟩ := Option.map_eq_some_iff.mp h
      obtain ⟨-, rfl⟩ := Prod.mk.inj hpair
      have hle := (string_length hp).1
      omega
    · obtain ⟨-, rfl⟩ := Prod.mk.inj (Option.some.inj h)
      omega
    · obtain ⟨p, hp, hpair⟩ := Option.map_eq_some_iff.mp h
      obtain ⟨-, rfl⟩ := Prod.mk.inj hpair
      have hle := ih.items hp
      omega
    · obtain ⟨-, rfl⟩ := Prod.mk.inj (Option.some.inj h)
      omega
    · obtain ⟨p, hp, hpair⟩ := Option.map_eq_some_iff.mp h
      obtain ⟨-, rfl⟩ := Prod.mk.inj hpair
      have hle := ih.fields hp
      omega
    · obtain ⟨j', -, hpair⟩ := Option.map_eq_some_iff.mp h
      obtain ⟨-, rfl⟩ := Prod.mk.inj hpair
      have hle := List.length_dropWhile_le isWordChar (c :: t')
      rw [List.length_cons] at hle
      omega

theorem items_shrinks {n : ℕ} (ih : Shrinks n) {t : List Char} {js : List Json} {r : List Char}
    (h : items (n + 1) t = some (js, r)) : r.length ≤ t.length := by
  rw [items] at h
  cases hv : value n t with
  | none =>
    rw [hv] at h
    cases h
  | some p =>
    have hle := ih.value hv
    rw [hv] at h
    dsimp only at h
    split_ifs at h with hc he
    · obtain ⟨q, hq, hpair⟩ := Option.map_eq_some_iff.mp h
      obtain ⟨-, rfl⟩ := Prod.mk.inj hpair
      have htail := tail_skip_length hc
      have hrest := ih.items hq
      omega
    · obtain ⟨-, rfl⟩ := Prod.mk.inj (Option.some.inj h)
      have htail := tail_skip_length he
      omega

/-- The first field of an object, and what is left behind it. -/
theorem fields_cases {n : ℕ} {t : List Char} {fs : List (String × Json)} {r : List Char}
    (h : fields (n + 1) t = some (fs, r)) :
    ∃ k rk j rj, (skip t).head? = some '"' ∧ string (skip t).tail = some (k, rk) ∧
      (skip rk).head? = some ':' ∧ value n (skip rk).tail = some (j, rj) ∧
      ((∃ fs', (skip rj).head? = some ',' ∧ fields n (skip rj).tail = some (fs', r) ∧
          fs = (k, j) :: fs') ∨
        ((skip rj).head? = some '\x7d' ∧ fs = [(k, j)] ∧ r = (skip rj).tail)) := by
  rw [fields] at h
  split_ifs at h with hq
  cases hk : string (skip t).tail with
  | none =>
    rw [hk] at h
    cases h
  | some p =>
    rw [hk] at h
    dsimp only at h
    split_ifs at h with hc
    cases hv : value n (skip p.2).tail with
    | none =>
      rw [hv] at h
      cases h
    | some q =>
      rw [hv] at h
      dsimp only at h
      refine ⟨p.1, p.2, q.1, q.2, hq, rfl, hc, hv, ?_⟩
      split_ifs at h with hcomma hbrace
      · obtain ⟨fs', hfs', hpair⟩ := Option.map_eq_some_iff.mp h
        obtain ⟨rfl, rfl⟩ := Prod.mk.inj hpair
        exact Or.inl ⟨fs'.1, hcomma, hfs', rfl⟩
      · obtain ⟨rfl, rfl⟩ := Prod.mk.inj (Option.some.inj h)
        exact Or.inr ⟨hbrace, rfl, rfl⟩

/-- The first field of an object whose text begins with a key. -/
theorem fields_quote_cases {n : ℕ} {k : String} {t : List Char} {fs : List (String × Json)}
    {r : List Char} (h : fields (n + 1) (quote k ++ [':', ' '] ++ t) = some (fs, r)) :
    ∃ j rj, value n t = some (j, rj) ∧
      ((∃ fs', (skip rj).head? = some ',' ∧ fields n (skip rj).tail = some (fs', r) ∧
          fs = (k, j) :: fs') ∨
        ((skip rj).head? = some '\x7d' ∧ fs = [(k, j)] ∧ r = (skip rj).tail)) := by
  obtain ⟨k', rk, j, rj, -, hk, -, hv, hrest⟩ := fields_cases h
  have hskip : (skip (quote k ++ [':', ' '] ++ t)).tail =
      k.toList.flatMap escapeChar ++ '"' :: (':' :: ' ' :: t) := by
    unfold quote
    rw [List.append_assoc, List.cons_append, List.cons_append, skip_cons rfl, List.tail_cons,
      List.append_assoc]
    rfl
  rw [hskip, string_quote] at hk
  obtain ⟨rfl, rfl⟩ := Prod.mk.inj (Option.some.inj hk)
  rw [skip_cons rfl, List.tail_cons, value_space] at hv
  exact ⟨j, rj, hv, hrest⟩

theorem fields_shrinks {n : ℕ} (ih : Shrinks n) {t : List Char} {fs : List (String × Json)}
    {r : List Char} (h : fields (n + 1) t = some (fs, r)) : r.length ≤ t.length := by
  obtain ⟨k, rk, j, rj, hq, hk, hc, hv, hrest⟩ := fields_cases h
  have hquote := tail_skip_length hq
  have hkey := (string_length hk).1
  have hcolon := tail_skip_length hc
  have hvalue := ih.value hv
  rcases hrest with ⟨fs', hcomma, hfs', -⟩ | ⟨hbrace, -, rfl⟩
  · have htail := tail_skip_length hcomma
    have hfields := ih.fields hfs'
    omega
  · have htail := tail_skip_length hbrace
    omega

theorem shrinks (n : ℕ) : Shrinks n := by
  induction n with
  | zero =>
    refine ⟨fun h => ?_, fun h => ?_, fun h => ?_⟩
    · rw [value] at h; cases h
    · rw [items] at h; cases h
    · rw [fields] at h; cases h
  | succ n ih => exact ⟨value_shrinks ih, items_shrinks ih, fields_shrinks ih⟩

theorem word_ne_str (t : List Char) (s : String) : word t ≠ some (.str s) := by
  unfold word
  split_ifs <;> · intro h; cases h

/-- A value that is a string stands between quotes. -/
theorem string_of_value {n : ℕ} {t : List Char} {s : String} {r : List Char}
    (h : value n t = some (.str s, r)) :
    (skip t).head? = some '"' ∧ string (skip t).tail = some (s, r) := by
  cases n with
  | zero => rw [value] at h; cases h
  | succ n =>
    rw [value] at h
    cases hs : skip t with
    | nil =>
      rw [hs] at h
      cases h
    | cons c t' =>
      rw [hs] at h
      dsimp only at h
      split_ifs at h with hq
      · obtain ⟨p, hp, hpair⟩ := Option.map_eq_some_iff.mp h
        obtain ⟨hstr, rfl⟩ := Prod.mk.inj hpair
        obtain rfl := Json.str.inj hstr
        exact ⟨congrArg some hq, hp⟩
      · cases (Prod.mk.inj (Option.some.inj h)).1
      · obtain ⟨p, -, hpair⟩ := Option.map_eq_some_iff.mp h
        cases (Prod.mk.inj hpair).1
      · cases (Prod.mk.inj (Option.some.inj h)).1
      · obtain ⟨p, -, hpair⟩ := Option.map_eq_some_iff.mp h
        cases (Prod.mk.inj hpair).1
      · obtain ⟨j, hj, hpair⟩ := Option.map_eq_some_iff.mp h
        obtain ⟨rfl, -⟩ := Prod.mk.inj hpair
        exact absurd hj (word_ne_str _ s)

/-- A string that is the value of a field is shorter than the text of the fields. -/
theorem length_lt_of_mem_fields {n : ℕ} {t : List Char} {fs : List (String × Json)} {r : List Char}
    (h : fields n t = some (fs, r)) {k s : String} (hmem : (k, .str s) ∈ fs) :
    s.toList.length < t.length := by
  induction n generalizing t fs with
  | zero => rw [fields] at h; cases h
  | succ n ih =>
    obtain ⟨k', rk, j, rj, hq, hk, hc, hv, hrest⟩ := fields_cases h
    have hquote := tail_skip_length hq
    have hkey := (string_length hk).1
    have hcolon := tail_skip_length hc
    have hfirst : j = .str s → s.toList.length < t.length := by
      rintro rfl
      obtain ⟨hopen, hs⟩ := string_of_value hv
      have hstart := tail_skip_length hopen
      have hle := (string_length hs).1
      omega
    rcases hrest with ⟨fs', hcomma, hfs', rfl⟩ | ⟨-, rfl, -⟩
    · rcases List.mem_cons.mp hmem with hhead | hmem
      · exact hfirst (Prod.mk.inj hhead).2.symm
      · have htail := tail_skip_length hcomma
        have hvalue := (shrinks n).value hv
        have hlt := ih hfs' hmem
        omega
    · exact hfirst (Prod.mk.inj (List.mem_singleton.mp hmem)).2.symm

end Json

end Py
