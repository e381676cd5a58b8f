import Mathlib.Data.List.Induction
import Mathlib.Data.Nat.Cast.Basic
import PyStreamAI.Py.Dict

/-!
# Folding into a dictionary

The loop `for x in xs: d[f(x)] = g(d.get(f(x), z), x)` folds the items of each key apart: what it
leaves under a key is the fold over the items with that key, in their order (`getD_foldInto`). Counts
and sums are instances.
-/

namespace Py

namespace Dict

variable {α κ μ : Type*} [DecidableEq κ] (f : α → κ) (g : μ → α → μ) (z : μ)

/-- The loop, from the dictionary `d`. -/
def foldInto (d : Dict κ μ) (xs : List α) : Dict κ μ :=
  xs.foldl (fun d x => d.set (f x) (g (d.getD (f x) z) x)) d

@[simp] theorem foldInto_nil (d : Dict κ μ) : d.foldInto f g z [] = d := rfl

theorem foldInto_append (d : Dict κ μ) (xs ys : List α) :
    d.foldInto f g z (xs ++ ys) = (d.foldInto f g z xs).foldInto f g z ys := List.foldl_append

theorem foldInto_snoc (d : Dict κ μ) (xs : List α) (x : α) :
    d.foldInto f g z (xs ++ [x]) =
      (d.foldInto f g z xs).set (f x) (g ((d.foldInto f g z xs).getD (f x) z) x) :=
  foldInto_append f g z d xs [x]

/-- Each key has the fold over its own items. -/
theorem getD_foldInto (d : Dict κ μ) (xs : List α) (k : κ) :
    (d.foldInto f g z xs).getD k z = (xs.filter fun x => f x = k).foldl g (d.getD k z) := by
  induction xs using List.reverseRecOn with
  | nil => rfl
  | append_singleton xs x ih =>
    rw [foldInto_snoc, getD_set, List.filter_append]
    by_cases h : f x = k
    · subst h
      rw [if_pos rfl, ih, List.filter_cons_of_pos (by simp), List.filter_nil, List.foldl_append]
      rfl
    · rw [if_neg (Ne.symm h), ih, List.filter_cons_of_neg (by simpa using h), List.filter_nil,
        List.append_nil]

/-- The keys are the old ones and those of the items. -/
theorem mem_keys_foldInto (d : Dict κ μ) (xs : List α) (k : κ) :
    k ∈ (d.foldInto f g z xs).keys ↔ k ∈ d.keys ∨ ∃ x ∈ xs, f x = k := by
  induction xs using List.reverseRecOn with
  | nil => simp
  | append_singleton xs x ih =>
    rw [foldInto_snoc, mem_keys_set, ih]
    simp only [List.mem_append, List.mem_singleton, eq_comm (a := k)]
    constructor
    · rintro (h | h | ⟨y, hy, rfl⟩)
      · exact .inr ⟨x, .inr rfl, h⟩
      · exact .inl h
      · exact .inr ⟨y, .inl hy, rfl⟩
    · rintro (h | ⟨y, hy | rfl, h⟩)
      · exact .inr (.inl h)
      · exact .inr (.inr ⟨y, hy, h⟩)
      · exact .inl h

theorem get?_foldInto (xs : List α) (k : κ) :
    (foldInto f g z ∅ xs).get? k =
      if ∃ x ∈ xs, f x = k then some ((xs.filter fun x => f x = k).foldl g z) else none := by
  have hkeys := mem_keys_foldInto f g z ∅ xs k
  rw [or_iff_right (by exact List.not_mem_nil)] at hkeys
  split_ifs with h
  · obtain ⟨v, hv⟩ := mem_keys_iff.mp (hkeys.mpr h)
    have hget := getD_foldInto f g z ∅ xs k
    unfold getD at hget
    rw [hv] at hget
    rw [hv]
    exact congrArg some hget
  · exact get?_eq_none.mpr (mt hkeys.mp h)

/-- The items of the dictionary, each key with its fold. -/
theorem mem_entries_foldInto (xs : List α) {k : κ} {v : μ} :
    (k, v) ∈ (foldInto f g z ∅ xs).entries ↔
      (∃ x ∈ xs, f x = k) ∧ v = (xs.filter fun x => f x = k).foldl g z := by
  rw [← get?_eq_some, get?_foldInto]
  split_ifs with h
  · rw [Option.some.injEq, and_iff_right h, eq_comm]
  · exact iff_of_false (fun h' => by cases h') fun h' => h h'.1

end Dict

/-! ## Counts and sums -/

section Tally

variable {α : Type*} {M : Type*} [AddMonoid M]

theorem foldl_add_eq (w : α → M) (c : M) (xs : List α) :
    xs.foldl (fun c x => c + w x) c = c + (xs.map w).sum := by
  induction xs generalizing c with
  | nil => simp
  | cons x xs ih => rw [List.foldl_cons, ih, List.map_cons, List.sum_cons, add_assoc]

variable {κ : Type*} [DecidableEq κ]

/-- `d[f(x)] = d.get(f(x), 0) + w(x)` for each item. -/
def Dict.addInto (f : α → κ) (w : α → M) (d : Dict κ M) (xs : List α) : Dict κ M :=
  d.foldInto f (fun c x => c + w x) 0 xs

theorem Dict.getD_addInto (f : α → κ) (w : α → M) (xs : List α) (k : κ) :
    (Dict.addInto f w ∅ xs).getD k 0 = ((xs.filter fun x => f x = k).map w).sum := by
  unfold Dict.addInto
  rw [getD_foldInto, foldl_add_eq, getD_empty, zero_add]

theorem Dict.getD_count (f : α → κ) (xs : List α) (k : κ) :
    (Dict.addInto f (fun _ => 1) ∅ xs).getD k 0 = xs.countP fun x => f x = k := by
  rw [getD_addInto, List.map_const', List.sum_replicate, List.countP_eq_length_filter]
  simp

end Tally

end Py
