import Mathlib.Algebra.Ring.Nat
import Mathlib.Data.List.Forall2
import PyStreamAI.Py.JsonLength

/-!
# Token streams

`to_stream` writes each token between quotes as it is, a line a token. The lines can be read back
exactly when no token has a character that JSON escapes (`readStream_toStream_iff`): a newline
makes a line too many, and any other such character leaves a string shorter than the token.
-/

open Py

namespace PyStreamAI

/-- Stream tokens as they're generated. -/
structure TokenStreamingResponse where
  requestId : String
  tokens : List String := []
  started : Bool := false
  completed : Bool := false

namespace TokenStreamingResponse

/-- Add generated token. -/
def addToken (r : TokenStreamingResponse) (token : String) : TokenStreamingResponse :=
  { r with started := true, tokens := r.tokens ++ [token] }

/-- Mark response as complete. -/
def complete (r : TokenStreamingResponse) : TokenStreamingResponse := { r with completed := true }

/-- The line of a token. -/
def line (token : String) : String := "\x7b\"token\": \"" ++ token ++ "\"\x7d"

/-- Convert to streaming format (newline-delimited JSON). -/
def toStream (r : TokenStreamingResponse) : String := "\n".intercalate (r.tokens.map line)

/-- Get full accumulated text. -/
def toFullText (r : TokenStreamingResponse) : String := String.join r.tokens

end TokenStreamingResponse

/-! ## Reading a stream -/

/-- The token of a line of newline-delimited JSON. -/
def readLine (line : List Char) : Option String :=
  match (Json.loads line).bind (Json.field? "token") with
  | some (.str token) => some token
  | _ => none

/-- The tokens of a text of newline-delimited JSON. -/
def readStream (text : String) : Option (List String) :=
  if text = "" then some [] else (text.toList.splitOn '\n').mapM readLine

theorem mapM_eq_some {α β : Type*} {f : α → Option β} {xs : List α} {ys : List β} :
    xs.mapM f = some ys ↔ List.Forall₂ (fun x y => f x = some y) xs ys := by
  induction xs generalizing ys with
  | nil =>
    rw [List.mapM_nil, List.forall₂_nil_left_iff]
    exact ⟨fun h => (Option.some.inj h).symm, fun h => by rw [h]; rfl⟩
  | cons x xs ih =>
    rw [List.mapM_cons, List.forall₂_cons_left_iff]
    constructor
    · intro h
      obtain ⟨y, hy, h⟩ := Option.bind_eq_some_iff.mp h
      obtain ⟨ys', hys, h⟩ := Option.bind_eq_some_iff.mp h
      exact ⟨y, ys', hy, ih.mp hys, (Option.some.inj h).symm⟩
    · rintro ⟨y, ys', hy, hys, rfl⟩
      rw [hy, ih.mpr hys]
      rfl

/-! ### Lines -/

theorem length_splitOn {α : Type*} [BEq α] [LawfulBEq α] (a : α) (xs : List α) :
    (xs.splitOn a).length = xs.count a + 1 := by
  induction xs with
  | nil => rw [List.splitOn_nil, List.count_nil, List.length_singleton]
  | cons x xs ih =>
    rw [List.splitOn_cons_eq_if_modifyHead, List.count_cons]
    split_ifs
    · rw [List.length_cons, ih]
    · rw [List.length_modifyHead, ih]

theorem count_intercalate {α : Type*} [BEq α] [LawfulBEq α] (a : α) (l : List α)
    (ls : List (List α)) :
    ([a].intercalate (l :: ls)).count a = ((l :: ls).map (List.count a)).sum + ls.length := by
  induction ls generalizing l with
  | nil => simp
  | cons l' ls ih =>
    rw [List.intercalate_cons_cons, List.count_append, List.count_append, ih,
      List.count_singleton_self]
    simp only [List.map_cons, List.sum_cons, List.length_cons]
    omega

/-- Text that is split into as many lines as were joined has no newline of its own. -/
theorem notMem_of_length_splitOn {α : Type*} [BEq α] [LawfulBEq α] {a : α} {ls : List (List α)}
    (hne : ls ≠ []) (h : (([a].intercalate ls).splitOn a).length = ls.length) :
    ∀ l ∈ ls, a ∉ l := by
  obtain ⟨l, ls, rfl⟩ := List.exists_cons_of_ne_nil hne
  rw [length_splitOn, count_intercalate, List.length_cons] at h
  have hsum : ((l :: ls).map (List.count a)).sum = 0 := by omega
  intro l' hl'
  rw [← List.count_eq_zero]
  exact List.sum_eq_zero_iff_forall_eq_nat.mp hsum _ (List.mem_map_of_mem hl')

/-! ### Tokens -/

open TokenStreamingResponse

theorem toList_line (token : String) :
    (line token).toList =
      '\x7b' :: (Json.quote "token" ++ [':', ' '] ++ '"' :: (token.toList ++ ['"', '\x7d'])) := by
  unfold line
  rw [String.toList_append, String.toList_append, List.append_assoc]
  rfl

theorem loads_line (token : String) :
    Json.loads (line token).toList =
      (Json.fields (token.toList.length + 13)
        (Json.quote "token" ++ [':', ' '] ++ '"' :: (token.toList ++ ['"', '\x7d']))).bind
        fun p => if Json.skip p.2 = [] then some (.obj p.1) else none := by
  have hquote : Json.quote "token" = ['"', 't', 'o', 'k', 'e', 'n', '"'] := by decide
  have hhead : (Json.skip (Json.quote "token" ++ [':', ' '] ++
      '"' :: (token.toList ++ ['"', '\x7d']))).head? ≠ some '\x7d' := by
    intro h
    rw [hquote] at h
    exact absurd (Option.some.inj h) (by decide)
  have hlength : (Json.quote "token" ++ [':', ' '] ++
      '"' :: (token.toList ++ ['"', '\x7d'])).length + 1 = token.toList.length + 13 := by
    rw [hquote]
    simp
  rw [toList_line, Json.loads_object hhead, hlength]

/-- The line of a token is read back when nothing in the token had to be escaped. -/
theorem readLine_line_of_raw {token : String} (h : ∀ c ∈ token.toList, Json.IsRaw c) :
    readLine (line token).toList = some token := by
  have hvalue : ∀ n, Json.value (n + 1) ('"' :: (token.toList ++ ['"', '\x7d'])) =
      some (.str token, ['\x7d']) := by
    intro n
    rw [Json.value_quoted, Json.string_raw h, String.ofList_toList]
    rfl
  unfold readLine
  rw [loads_line, Json.fields_cons "token" (hvalue _)]
  rfl

theorem mem_of_field? {name : String} {fs : List (String × Json)} {j : Json}
    (h : Json.field? name (.obj fs) = some j) : (name, j) ∈ fs := by
  obtain ⟨f, hf, rfl⟩ := Option.map_eq_some_iff.mp h
  have hname : f.1 = name := by simpa using List.find?_some hf
  have hmem := List.mem_reverse.mp (List.mem_of_find?_eq_some hf)
  rwa [← hname]

theorem readLine_eq_some {t : List Char} {token : String} (h : readLine t = some token) :
    ∃ j, Json.loads t = some j ∧ j.field? "token" = some (.str token) := by
  unfold readLine at h
  split at h
  · rename_i token' hfield
    obtain rfl := Option.some.inj h
    exact Option.bind_eq_some_iff.mp hfield
  · cases h

/-- A line that is read back had nothing to escape: the string of the first field is the token only
if it is as long as its text, and later fields have no room for it. -/
theorem raw_of_readLine_line {token : String} (h : readLine (line token).toList = some token) :
    ∀ c ∈ token.toList, Json.IsRaw c := by
  obtain ⟨j, hj, hfield⟩ := readLine_eq_some h
  rw [loads_line] at hj
  obtain ⟨⟨fs, r⟩, hfields, hj⟩ := Option.bind_eq_some_iff.mp hj
  split_ifs at hj
  obtain rfl := Option.some.inj hj
  have hmem := mem_of_field? hfield
  obtain ⟨j, rj, hv, hrest⟩ := Json.fields_quote_cases hfields
  rw [Json.value_quoted] at hv
  obtain ⟨q, hq, hpair⟩ := Option.map_eq_some_iff.mp hv
  obtain ⟨rfl, rfl⟩ := Prod.mk.inj hpair
  obtain ⟨hle, htight⟩ := Json.string_length hq
  rw [List.length_append, List.length_cons, List.length_singleton] at hle htight
  have hfirst : ("token", Json.str token) = ("token", Json.str q.1) → 1 ≤ q.2.length →
      ∀ c ∈ token.toList, Json.IsRaw c := by
    intro he hpos
    obtain rfl := Json.str.inj (Prod.mk.inj he).2
    exact (htight (by omega)).2
  rcases hrest with ⟨fs', hcomma, hfs', rfl⟩ | ⟨hbrace, rfl, -⟩
  · have htail := Json.tail_skip_length hcomma
    rcases List.mem_cons.mp hmem with he | hmem
    · exact hfirst he (by omega)
    · have hlt := Json.length_lt_of_mem_fields hfs' hmem
      omega
  · have htail := Json.tail_skip_length hbrace
    exact hfirst (List.mem_singleton.mp hmem) (by omega)

/-! ## Streams are read back -/

theorem tokens_foldl_addToken (r : TokenStreamingResponse) (tokens : List String) :
    (tokens.foldl addToken r).tokens = r.tokens ++ tokens := by
  induction tokens generalizing r with
  | nil => exact (List.append_nil _).symm
  | cons token tokens ih =>
    rw [List.foldl_cons, ih]
    exact List.append_assoc _ _ _

theorem toList_toStream (r : TokenStreamingResponse) :
    r.toStream.toList = ['\n'].intercalate (r.tokens.map fun token => (line token).toList) := by
  unfold toStream
  rw [String.toList_intercalate, List.map_map]
  rfl

theorem newline_notMem_line {token : String} (h : ∀ c ∈ token.toList, Json.IsRaw c) :
    '\n' ∉ (line token).toList := by
  have hquote : Json.quote "token" = ['"', 't', 'o', 'k', 'e', 'n', '"'] := by decide
  have htoken : '\n' ∉ token.toList := fun hmem => absurd (h _ hmem).2.2 (by decide)
  rw [toList_line, hquote]
  simp [htoken]

theorem toStream_ne_empty {r : TokenStreamingResponse} (h : r.tokens ≠ []) : r.toStream ≠ "" := by
  intro hempty
  have htext := toList_toStream r
  obtain ⟨token, tokens, htokens⟩ := List.exists_cons_of_ne_nil h
  rw [hempty, htokens, List.map_cons, toList_line] at htext
  cases tokens with
  | nil => simp at htext
  | cons token' tokens => simp at htext

/-- Lines that are all read back as the tokens they are made from. -/
theorem mapM_readLine_iff (tokens : List String) :
    (tokens.map fun token => (line token).toList).mapM readLine = some tokens ↔
      ∀ token ∈ tokens, readLine (line token).toList = some token := by
  rw [mapM_eq_some, List.forall₂_map_left_iff, List.forall₂_same]

/-- **Round trip.** The tokens that were added are read back from the stream, exactly when none of
them has a quote, a backslash or a control character. -/
theorem readStream_toStream_iff (requestId : String) (tokens : List String) :
    readStream (tokens.foldl addToken { requestId }).toStream = some tokens ↔
      ∀ token ∈ tokens, ∀ c ∈ token.toList, c ≠ '"' ∧ c ≠ '\\' ∧ ' ' ≤ c := by
  have htokens : (tokens.foldl addToken { requestId }).tokens = tokens :=
    tokens_foldl_addToken { requestId } tokens
  by_cases hne : tokens = []
  · subst hne
    exact ⟨fun _ token hmem => absurd hmem List.not_mem_nil, fun _ => rfl⟩
  · have hlines : (tokens.map fun token => (line token).toList) ≠ [] :=
      fun h => hne (List.map_eq_nil_iff.mp h)
    unfold readStream
    rw [if_neg (toStream_ne_empty (by rwa [htokens])), toList_toStream, htokens]
    constructor
    · intro h
      have hlength := (mapM_eq_some.mp h).length_eq
      have hone := notMem_of_length_splitOn hlines (hlength.trans (List.length_map _).symm)
      rw [List.splitOn_intercalate _ hone hlines, mapM_readLine_iff] at h
      exact fun token hmem => raw_of_readLine_line (h token hmem)
    · intro h
      rw [List.splitOn_intercalate _ _ hlines, mapM_readLine_iff]
      · exact fun token hmem => readLine_line_of_raw (h token hmem)
      · intro l hl
        obtain ⟨token, hmem, rfl⟩ := List.mem_map.mp hl
        exact newline_notMem_line (h token hmem)

/-- A quote ends the string early, and a newline ends the line. -/
theorem escapedTokens_lost :
    readStream (["say \"hi\""].foldl addToken { requestId := "r" }).toStream = none ∧
      readStream (["a\nb"].foldl addToken { requestId := "r" }).toStream = none := by
  decide +kernel

end PyStreamAI
