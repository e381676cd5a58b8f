import PyStreamAI.Py.JsonParse

/-!
# JSON texts in a layout

`json.dumps` with `indent`: every item of an array and every field of an object begins a line. A
layout says which white space stands behind an opening bracket, behind a comma and before a closing
bracket, at each depth. White space is all a layout adds, so in any layout a value is read back
(`loads_write`), with its fields in the order of their keys when `sort_keys` is set.
-/

namespace Py

namespace Json

/-! ## Writing -/

/-- The white space of a text, by depth. -/
structure Layout where
  /-- Behind an opening bracket. -/
  opening : ℕ → List Char
  /-- Behind a comma. -/
  between : ℕ → List Char
  /-- Before a closing bracket. -/
  closing : ℕ → List Char
  white_opening : ∀ d, ∀ c ∈ opening d, isWhite c = true
  white_between : ∀ d, ∀ c ∈ between d, isWhite c = true
  white_closing : ∀ d, ∀ c ∈ closing d, isWhite c = true

/-- `'\n' + ' ' * n`. -/
def newline (n : ℕ) : List Char := '\n' :: List.replicate n ' '

theorem isWhite_of_mem_newline {n : ℕ} : ∀ c ∈ newline n, isWhite c = true := by
  intro c hc
  rcases List.mem_cons.mp hc with rfl | hc
  · rfl
  · rw [List.eq_of_mem_replicate hc]
    rfl

/-- The layout of `json.dumps(.., indent=indent)`. -/
def Layout.indented (indent : ℕ) : Layout where
  opening d := newline (indent * (d + 1))
  between d := newline (indent * (d + 1))
  closing d := newline (indent * d)
  white_opening _ := isWhite_of_mem_newline
  white_between _ := isWhite_of_mem_newline
  white_closing _ := isWhite_of_mem_newline

variable (L : Layout)

/-- Texts between brackets. -/
def bracket (d : ℕ) (o c : Char) : List (List Char) → List Char
  | [] => [o, c]
  | t :: ts =>
    o :: (L.opening d ++ join (',' :: L.between d) (t :: ts) ++ L.closing d ++ [c])

mutual

/-- The text of a value at a depth. -/
def write (sortKeys : Bool) (d : ℕ) : Json → List Char
  | .null => ['n', 'u', 'l', 'l']
  | .bool true => ['t', 'r', 'u', 'e']
  | .bool false => ['f', 'a', 'l', 's', 'e']
  | .int n => (toString n).toList
  | .float x => x.text
  | .str s => quote s
  | .arr items => bracket L d '[' ']' (writeItems sortKeys (d + 1) items)
  | .obj fields =>
    bracket L d '{' '}' ((order sortKeys (writeFields sortKeys (d + 1) fields)).map renderField)

/-- The texts of the items of an array. -/
def writeItems (sortKeys : Bool) (d : ℕ) : List Json → List (List Char)
  | [] => []
  | j :: js => write sortKeys d j :: writeItems sortKeys d js

/-- The keys of an object with the texts of their values. -/
def writeFields (sortKeys : Bool) (d : ℕ) : List (String × Json) → List (String × List Char)
  | [] => []
  | (k, j) :: fields => (k, write sortKeys d j) :: writeFields sortKeys d fields

end

/-- `json.dumps(j, indent=indent, sort_keys=sortKeys)`. -/
def dumpsIndent (indent : ℕ) (sortKeys : Bool) (j : Json) : String :=
  String.ofList (write (.indented indent) sortKeys 0 j)

/-! ## White space is skipped -/

theorem skip_white {w : List Char} (hw : ∀ c ∈ w, isWhite c = true) (t : List Char) :
    skip (w ++ t) = skip t := List.dropWhile_append_of_pos hw

theorem value_white {w : List Char} (hw : ∀ c ∈ w, isWhite c = true) (n : ℕ) (t : List Char) :
    value n (w ++ t) = value n t := by
  cases n with
  | zero => rw [value, value]
  | succ n => rw [value, value, skip_white hw]

theorem items_white {w : List Char} (hw : ∀ c ∈ w, isWhite c = true) (n : ℕ) (t : List Char) :
    items n (w ++ t) = items n t := by
  cases n with
  | zero => rw [items, items]
  | succ n => rw [items, items, value_white hw]

theorem fields_white {w : List Char} (hw : ∀ c ∈ w, isWhite c = true) (n : ℕ) (t : List Char) :
    fields n (w ++ t) = fields n t := by
  cases n with
  | zero => rw [fields, fields]
  | succ n => rw [fields, fields, skip_white hw]

theorem follow_white {w : List Char} (hw : ∀ c ∈ w, isWhite c = true) {c : Char}
    (hc : isWordChar c = false) (t : List Char) : Follow (w ++ c :: t) := by
  cases w with
  | nil => exact follow_cons hc t
  | cons d w =>
    refine follow_cons (Bool.eq_false_iff.mpr fun hd => ?_) (w ++ c :: t)
    have hwhite := hw d List.mem_cons_self
    rw [isWhite_of_isStart (by rw [isStart, hd]; rfl)] at hwhite
    cases hwhite

/-- Behind white space a bracket is found. -/
theorem skip_white_cons {w : List Char} (hw : ∀ c ∈ w, isWhite c = true) {c : Char}
    (hc : isWhite c = false) (t : List Char) : skip (w ++ c :: t) = c :: t := by
  rw [skip_white hw, skip_cons hc]

/-! ## Values are read back -/

variable {L}

theorem exists_write (d : ℕ) (j : Json) : ∃ c t, write L false d j = c :: t ∧ isStart c = true := by
  cases j with
  | null => exact exists_render .null
  | bool b =>
    cases b with
    | false => exact ⟨'f', _, by rw [write], by decide⟩
    | true => exact ⟨'t', _, by rw [write], by decide⟩
  | int n => simpa only [render, write] using exists_render (.int n)
  | float x => simpa only [render, write] using exists_render (.float x)
  | str s => exact ⟨'"', _, by rw [write, quote, List.cons_append], by decide⟩
  | arr items =>
    rw [write]
    cases writeItems L false (d + 1) items with
    | nil => exact ⟨'[', _, rfl, by decide⟩
    | cons t ts => exact ⟨'[', _, rfl, by decide⟩
  | obj fields =>
    rw [write]
    cases (order false (writeFields L false (d + 1) fields)).map renderField with
    | nil => exact ⟨'{', _, rfl, by decide⟩
    | cons t ts => exact ⟨'{', _, rfl, by decide⟩

/-- A value that no bracket is part of stands in every layout as it stands in a line. -/
theorem value_write_of_eq {j : Json} {d n : ℕ} (h : write L false d j = render false j)
    (r : List Char) (hn : (write L false d j).length ≤ n) (hr : Follow r) :
    value n (write L false d j ++ r) = some (j, r) := by
  rw [h] at hn ⊢
  exact value_render j n r hn hr

mutual

/-- A value is read back from its text, whatever text follows that cannot be part of it. -/
theorem value_write : (j : Json) → ∀ (d n : ℕ) (r : List Char), (write L false d j).length ≤ n →
    Follow r → value n (write L false d j ++ r) = some (j, r)
  | .null => fun d n => value_write_of_eq (by rw [write, render])
  | .bool true => fun d n => value_write_of_eq (by rw [write, render])
  | .bool false => fun d n => value_write_of_eq (by rw [write, render])
  | .int k => fun d n => value_write_of_eq (by rw [write, render])
  | .float x => fun d n => value_write_of_eq (by rw [write, render])
  | .str s => fun d n => value_write_of_eq (by rw [write, render])
  | .arr [] => fun d n r hn _ => by
    obtain ⟨n, rfl⟩ := Nat.exists_eq_add_of_le' (Nat.le_trans (Nat.le_add_left 1 1) hn)
    rfl
  | .arr (j :: js) => fun d n r hn _ => by
    rw [write, writeItems, bracket, List.length_cons] at hn
    simp only [List.length_append, List.length_singleton] at hn
    obtain ⟨n, rfl⟩ := Nat.exists_eq_add_of_le' (Nat.le_trans (Nat.le_add_left 1 _) hn)
    obtain ⟨c, t, hj, hc⟩ := exists_write (L := L) (d + 1) j
    have hitems := items_write (j :: js) (by simp) d n r (by rw [writeItems]; omega)
    obtain ⟨u, hu⟩ := exists_join_cons (',' :: L.between d) (write L false (d + 1) j)
      (writeItems L false (d + 1) js)
    rw [writeItems] at hitems
    rw [write, writeItems, bracket, List.cons_append, value, skip_cons rfl]
    simp only [List.append_assoc, List.singleton_append]
    rw [if_neg (by decide), if_pos trivial, if_neg, items_white (L.white_opening d), hitems]
    · rfl
    · rw [skip_white (L.white_opening d), hu, hj, List.cons_append, List.cons_append,
        skip_cons (isWhite_of_isStart hc), List.head?_cons]
      intro he
      obtain rfl := Option.some.inj he
      exact absurd hc (by decide)
  | .obj [] => fun d n r hn _ => by
    obtain ⟨n, rfl⟩ := Nat.exists_eq_add_of_le' (Nat.le_trans (Nat.le_add_left 1 1) hn)
    rfl
  | .obj ((k, j) :: fs) => fun d n r hn _ => by
    have horder : order false (writeFields L false (d + 1) ((k, j) :: fs)) =
        (k, write L false (d + 1) j) :: writeFields L false (d + 1) fs := by
      rw [writeFields]
      rfl
    rw [write, horder, List.map_cons, bracket, List.length_cons] at hn
    simp only [List.length_append, List.length_singleton] at hn
    obtain ⟨n, rfl⟩ := Nat.exists_eq_add_of_le' (Nat.le_trans (Nat.le_add_left 1 _) hn)
    have hfields := fields_write ((k, j) :: fs) (by simp) d n r
      (by rw [writeFields, List.map_cons]; omega)
    obtain ⟨u, hu⟩ := exists_join_cons (',' :: L.between d) (renderField (k, write L false (d + 1) j))
      ((writeFields L false (d + 1) fs).map renderField)
    rw [writeFields, List.map_cons] at hfields
    rw [write, horder, List.map_cons, bracket, List.cons_append, value, skip_cons rfl]
    simp only [List.append_assoc, List.singleton_append]
    rw [if_neg (by decide), if_neg (by decide), if_pos trivial, if_neg,
      fields_white (L.white_opening d), hfields]
    · rfl
    · rw [skip_white (L.white_opening d), hu]
      exact fun he => absurd (Option.some.inj he) (by decide)

theorem items_write : (js : List Json) → js ≠ [] → ∀ (d n : ℕ) (r : List Char),
    (join (',' :: L.between d) (writeItems L false (d + 1) js)).length < n →
      items n (join (',' :: L.between d) (writeItems L false (d + 1) js) ++
        (L.closing d ++ ']' :: r)) = some (js, r)
  | [] => fun hne => absurd rfl hne
  | [j] => fun _ d n r hn => by
    obtain ⟨n, rfl⟩ := Nat.exists_eq_add_of_le' (Nat.zero_lt_of_lt hn)
    rw [writeItems, writeItems, join] at hn ⊢
    have hj := value_write j (d + 1) n (L.closing d ++ ']' :: r) (Nat.le_of_lt_succ hn)
      (follow_white (L.white_closing d) rfl r)
    rw [items, hj]
    dsimp only
    rw [skip_white_cons (L.white_closing d) rfl]
    rfl
  | j :: j' :: js => fun _ d n r hn => by
    obtain ⟨n, rfl⟩ := Nat.exists_eq_add_of_le' (Nat.zero_lt_of_lt hn)
    rw [writeItems, join_cons (by simp [writeItems])] at hn ⊢
    rw [List.length_append, List.length_append, List.length_cons] at hn
    have hj := fun r' => value_write j (d + 1) n (',' :: r') (by omega) (follow_cons rfl r')
    have hjs := items_write (j' :: js) (by simp) d n r (by omega)
    rw [List.append_assoc, List.append_assoc, List.cons_append, items, hj]
    show Option.map _ (items n (L.between d ++ _)) = _
    rw [items_white (L.white_between d), hjs]
    rfl

theorem fields_write : (fs : List (String × Json)) → fs ≠ [] → ∀ (d n : ℕ) (r : List Char),
    (join (',' :: L.between d) ((writeFields L false (d + 1) fs).map renderField)).length < n →
      fields n (join (',' :: L.between d) ((writeFields L false (d + 1) fs).map renderField) ++
        (L.closing d ++ '}' :: r)) = some (fs, r)
  | [] => fun hne => absurd rfl hne
  | [(k, j)] => fun _ d n r hn => by
    obtain ⟨n, rfl⟩ := Nat.exists_eq_add_of_le' (Nat.zero_lt_of_lt hn)
    rw [writeFields, writeFields, List.map_singleton, join, renderField] at hn ⊢
    rw [List.length_append] at hn
    have hj := value_write j (d + 1) n (L.closing d ++ '}' :: r) (by dsimp only at hn; omega)
      (follow_white (L.white_closing d) rfl r)
    rw [List.append_assoc, fields_cons k hj, skip_white_cons (L.white_closing d) rfl]
    rfl
  | (k, j) :: f :: fs => fun _ d n r hn => by
    obtain ⟨n, rfl⟩ := Nat.exists_eq_add_of_le' (Nat.zero_lt_of_lt hn)
    rw [writeFields, List.map_cons, join_cons (by simp [writeFields]), renderField] at hn ⊢
    rw [List.length_append, List.length_append, List.length_append] at hn
    have hsep : (',' :: L.between d).length = (L.between d).length + 1 := List.length_cons
    dsimp only at hn
    have hj := fun r' => value_write j (d + 1) n (',' :: r') (by omega) (follow_cons rfl r')
    have hfs := fields_write (f :: fs) (by simp) d n r (by omega)
    rw [List.append_assoc, List.append_assoc, List.append_assoc, List.cons_append,
      fields_cons k (hj _)]
    show Option.map _ (fields n (L.between d ++ _)) = _
    rw [fields_white (L.white_between d), hfs]
    rfl

end

/-! ## Key order -/

theorem writeFields_eq_map (b : Bool) (d : ℕ) (fields : List (String × Json)) :
    writeFields L b d fields = fields.map fun f => (f.1, write L b d f.2) := by
  induction fields with
  | nil => rw [writeFields, List.map_nil]
  | cons f fields ih => rw [writeFields, ih, List.map_cons]

mutual

theorem write_sortKeys : (j : Json) → ∀ d, write L false d (sortKeys j) = write L true d j
  | .null => fun _ => rfl
  | .bool b => fun _ => by cases b <;> rfl
  | .int _ => fun _ => rfl
  | .float _ => fun _ => rfl
  | .str _ => fun _ => rfl
  | .arr items => fun d => by rw [sortKeys, write, write, writeItems_sortItems items]
  | .obj fields => fun d => by
    have hsort : writeFields L false (d + 1)
          ((sortFields fields).insertionSort fun f g => f.1 ≤ g.1) =
        (writeFields L true (d + 1) fields).insertionSort fun f g => f.1 ≤ g.1 := by
      rw [← writeFields_sortFields fields, writeFields_eq_map, writeFields_eq_map]
      exact List.map_insertionSort _ _ _ _ fun _ _ _ _ => Iff.rfl
    rw [sortKeys, write, write, hsort]
    rfl

theorem writeItems_sortItems :
    (js : List Json) → ∀ d, writeItems L false d (sortItems js) = writeItems L true d js
  | [] => fun _ => rfl
  | j :: js => fun d => by
    rw [sortItems, writeItems, writeItems, write_sortKeys j, writeItems_sortItems js]

theorem writeFields_sortFields : (fields : List (String × Json)) →
    ∀ d, writeFields L false d (sortFields fields) = writeFields L true d fields
  | [] => fun _ => rfl
  | (k, j) :: fields => fun d => by
    rw [sortFields, writeFields, writeFields, write_sortKeys j, writeFields_sortFields fields]

end

/-- **Round trip in any layout**, also with white space behind the text. -/
theorem loads_write (L : Layout) (sorted : Bool) (j : Json) {w : List Char}
    (hw : ∀ c ∈ w, isWhite c = true) :
    loads (write L sorted 0 j ++ w) = some (if sorted then j.sortKeys else j) := by
  have hfollow : Follow w := by
    intro c hc
    have hwhite := hw c (List.mem_of_mem_head? hc)
    refine Bool.eq_false_iff.mpr fun hword => ?_
    rw [isWhite_of_isStart (by rw [isStart, hword]; rfl)] at hwhite
    cases hwhite
  have hread : ∀ j : Json, loads (write L false 0 j ++ w) = some j := by
    intro j
    have hvalue := value_write (L := L) j 0 ((write L false 0 j ++ w).length + 1) w
      (by rw [List.length_append]; omega) hfollow
    unfold loads
    rw [hvalue]
    exact if_pos (List.dropWhile_eq_nil_iff.mpr hw)
  cases sorted with
  | false => exact hread j
  | true =>
    rw [← write_sortKeys]
    exact hread j.sortKeys

theorem loads_dumpsIndent (indent : ℕ) (sorted : Bool) (j : Json) :
    loads (dumpsIndent indent sorted j).toList = some (if sorted then j.sortKeys else j) := by
  have hread := loads_write (.indented indent) sorted j (w := []) (fun _ hc => by cases hc)
  rw [List.append_nil] at hread
  unfold dumpsIndent
  rw [String.toList_ofList]
  exact hread

example : dumpsIndent 2 false (.obj [("b", .arr [.int 1, .null]), ("a", .obj [])]) =
    "\x7b\n  \"b\": [\n    1,\n    null\n  ],\n  \"a\": \x7b\x7d\n\x7d" := by decide +kernel

/-! ## Fields -/

/-- Where no key is twice, a field is found by its key. -/
theorem field?_eq_some {fs : List (String × Json)} (h : (fs.map Prod.fst).Nodup) {name : String}
    {j : Json} : field? name (.obj fs) = some j ↔ (name, j) ∈ fs := by
  unfold field?
  rw [Option.map_eq_some_iff]
  constructor
  · rintro ⟨f, hf, rfl⟩
    have hname : f.1 = name := by simpa using List.find?_some hf
    rw [← hname]
    exact List.mem_reverse.mp (List.mem_of_find?_eq_some hf)
  · intro hmem
    cases hf : fs.reverse.find? fun f => f.1 = name with
    | none =>
      rw [List.find?_eq_none] at hf
      exact absurd (decide_eq_true rfl) (hf _ (List.mem_reverse.mpr hmem))
    | some f =>
      have hname : f.1 = name := by simpa using List.find?_some hf
      have hf' := List.mem_reverse.mp (List.mem_of_find?_eq_some hf)
      rw [List.inj_on_of_nodup_map h hf' hmem hname]
      exact ⟨_, rfl, rfl⟩

theorem sortFields_eq_map (fs : List (String × Json)) :
    sortFields fs = fs.map fun f => (f.1, f.2.sortKeys) := by
  induction fs with
  | nil => rw [sortFields, List.map_nil]
  | cons f fs ih => rw [sortFields, ih, List.map_cons]

/-- Sorting the keys keeps the fields. -/
theorem field?_sortKeys {fs : List (String × Json)} (h : (fs.map Prod.fst).Nodup) (name : String) :
    field? name (sortKeys (.obj fs)) = (field? name (.obj fs)).map sortKeys := by
  rw [sortKeys, sortFields_eq_map]
  have hperm := List.perm_insertionSort (fun f g : String × Json => f.1 ≤ g.1)
    (fs.map fun f => (f.1, f.2.sortKeys))
  have hkeys : ((fs.map fun f => (f.1, f.2.sortKeys)).map Prod.fst).Nodup := by
    rw [List.map_map]
    exact h
  have hnodup := (hperm.map Prod.fst).nodup_iff.mpr hkeys
  ext j
  rw [field?_eq_some hnodup, hperm.mem_iff, List.mem_map, Option.map_eq_some_iff]
  constructor
  · rintro ⟨f, hf, he⟩
    obtain ⟨rfl, rfl⟩ := Prod.mk.inj he
    exact ⟨f.2, (field?_eq_some h).mpr hf, rfl⟩
  · rintro ⟨j', hj', rfl⟩
    exact ⟨_, (field?_eq_some h).mp hj', rfl⟩

end Json

end Py
