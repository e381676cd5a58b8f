import Mathlib.Algebra.BigOperators.Group.List.Basic
import Mathlib.Algebra.Ring.Nat
import Mathlib.Data.List.Nodup
import Mathlib.Data.List.Basic

/-!
# Insertion-ordered dictionaries

A `Dict` is the list of its items in insertion order, each key once. Assigning to a key that is
present replaces the value in place; a new key goes to the end. `get?_set`, `get?_erase` and
`get?_update` say what a lookup sees after each operation, `keys_set` and `len_set` what happens to
the key list, and `sum_set`, `sum_erase` and `sumBy_set` what happens to a sum over the values.
-/

namespace Py

/-- A dictionary: its items in insertion order, no key twice. -/
structure Dict (κ ν : Type*) where
  entries : List (κ × ν)
  nodup : (entries.map Prod.fst).Nodup
  deriving DecidableEq

namespace Dict

variable {κ ν : Type*}

/-- The empty dictionary. -/
def empty : Dict κ ν := ⟨[], List.nodup_nil⟩

instance : EmptyCollection (Dict κ ν) := ⟨empty⟩
instance : Inhabited (Dict κ ν) := ⟨empty⟩

/-- The keys, in insertion order. -/
def keys (d : Dict κ ν) : List κ := d.entries.map Prod.fst

/-- `len(d)`. -/
def len (d : Dict κ ν) : ℕ := d.entries.length

theorem length_keys (d : Dict κ ν) : d.keys.length = d.len := List.length_map _

/-- `{k: f(v) for k, v in d.items()}`. -/
def mapValues {μ : Type*} (f : ν → μ) (d : Dict κ ν) : Dict κ μ :=
  ⟨d.entries.map fun e => (e.1, f e.2), by rw [List.map_map]; exact d.nodup⟩

/-- `{k: v for k, v in d.items() if p(v)}`. -/
def filterValues (p : ν → Bool) (d : Dict κ ν) : Dict κ ν :=
  ⟨d.entries.filter fun e => p e.2, d.nodup.sublist (List.filter_sublist.map _)⟩

theorem filterValues_of_forall {p : ν → Bool} {d : Dict κ ν}
    (h : ∀ e ∈ d.entries, p e.2 = true) : d.filterValues p = d := by
  have hentries : d.entries.filter (fun e => p e.2) = d.entries := List.filter_eq_self.mpr h
  unfold filterValues
  simp only [hentries]

variable [DecidableEq κ]

/-! ## Item lists -/

/-- The value of the first item under `k`. -/
def lookupItem (k : κ) : List (κ × ν) → Option ν
  | [] => none
  | (k', v) :: es => if k' = k then some v else lookupItem k es

/-- Replace the value under `k` in place, or append the item. -/
def setItem (k : κ) (v : ν) : List (κ × ν) → List (κ × ν)
  | [] => [(k, v)]
  | (k', v') :: es => if k' = k then (k', v) :: es else (k', v') :: setItem k v es

theorem lookupItem_eq_none {k : κ} {es : List (κ × ν)} :
    lookupItem k es = none ↔ k ∉ es.map Prod.fst := by
  induction es with
  | nil => simp [lookupItem]
  | cons e es ih =>
    obtain ⟨k', v⟩ := e
    unfold lookupItem
    by_cases h : k' = k
    · simp [h]
    · rw [if_neg h, ih]
      simp [Ne.symm h]

theorem lookupItem_setItem (k k' : κ) (v : ν) (es : List (κ × ν)) :
    lookupItem k' (setItem k v es) = if k' = k then some v else lookupItem k' es := by
  induction es with
  | nil => by_cases h : k' = k <;> simp [setItem, lookupItem, h, Ne.symm]
  | cons e es ih =>
    obtain ⟨k₀, v₀⟩ := e
    by_cases h₀ : k₀ = k
    · subst h₀
      by_cases h : k' = k₀
      · simp [setItem, lookupItem, h]
      · simp [setItem, lookupItem, h, Ne.symm h]
    · by_cases h : k₀ = k'
      · subst h
        simp [setItem, lookupItem, h₀]
      · simp [setItem, lookupItem, h₀, h, ih]

theorem map_fst_setItem (k : κ) (v : ν) (es : List (κ × ν)) :
    (setItem k v es).map Prod.fst =
      if k ∈ es.map Prod.fst then es.map Prod.fst else es.map Prod.fst ++ [k] := by
  induction es with
  | nil => simp [setItem]
  | cons e es ih =>
    obtain ⟨k₀, v₀⟩ := e
    by_cases h₀ : k₀ = k
    · simp [setItem, h₀]
    · have hmem : k ∈ ((k₀, v₀) :: es).map Prod.fst ↔ k ∈ es.map Prod.fst := by
        simp [Ne.symm h₀]
      rw [setItem, if_neg h₀, List.map_cons, ih]
      by_cases h : k ∈ es.map Prod.fst
      · rw [if_pos h, if_pos (hmem.mpr h), List.map_cons]
      · rw [if_neg h, if_neg (mt hmem.mp h), List.map_cons, List.cons_append]

/-- A new key goes last. -/
theorem setItem_of_notMem {k : κ} (v : ν) {es : List (κ × ν)} (h : k ∉ es.map Prod.fst) :
    setItem k v es = es ++ [(k, v)] := by
  induction es with
  | nil => rfl
  | cons e es ih =>
    rw [List.map_cons, List.mem_cons, not_or] at h
    obtain ⟨k', v'⟩ := e
    rw [setItem, if_neg (Ne.symm h.1), ih h.2, List.cons_append]

theorem nodup_setItem {k : κ} {v : ν} {es : List (κ × ν)} (h : (es.map Prod.fst).Nodup) :
    ((setItem k v es).map Prod.fst).Nodup := by
  rw [map_fst_setItem]
  split_ifs with hk
  · exact h
  · exact List.nodup_append.mpr ⟨h, List.nodup_singleton k, by
      intro a ha b hb hab
      rw [List.mem_singleton.mp hb] at hab
      exact hk (hab ▸ ha)⟩

theorem lookupItem_filter (k k' : κ) (es : List (κ × ν)) :
    lookupItem k' (es.filter fun e => e.1 ≠ k) = if k' = k then none else lookupItem k' es := by
  induction es with
  | nil => simp [lookupItem]
  | cons e es ih =>
    obtain ⟨k₀, v₀⟩ := e
    by_cases h₀ : k₀ = k
    · rw [List.filter_cons_of_neg (by simpa using h₀), ih]
      by_cases h : k' = k
      · rw [if_pos h, if_pos h]
      · have hne : k₀ ≠ k' := fun e => h (e ▸ h₀)
        rw [if_neg h, if_neg h, lookupItem, if_neg hne]
    · rw [List.filter_cons_of_pos (by simpa using h₀), lookupItem, lookupItem, ih]
      by_cases h : k₀ = k'
      · subst h
        rw [if_pos rfl, if_neg h₀, if_pos rfl]
      · rw [if_neg h, if_neg h]

theorem lookupItem_eq_some {k : κ} {v : ν} {es : List (κ × ν)} (hn : (es.map Prod.fst).Nodup) :
    lookupItem k es = some v ↔ (k, v) ∈ es := by
  induction es with
  | nil => simp [lookupItem]
  | cons e es ih =>
    obtain ⟨k₀, v₀⟩ := e
    rw [List.map_cons, List.nodup_cons] at hn
    obtain ⟨hk₀, hn⟩ := hn
    by_cases h : k₀ = k
    · subst h
      have hmem : (k₀, v) ∉ es := fun hm => hk₀ (List.mem_map.mpr ⟨_, hm, rfl⟩)
      simp [lookupItem, hmem, eq_comm]
    · simp [lookupItem, h, Ne.symm h, ih hn]

theorem lookupItem_map {μ : Type*} (f : ν → μ) (k : κ) (es : List (κ × ν)) :
    lookupItem k (es.map fun e => (e.1, f e.2)) = (lookupItem k es).map f := by
  induction es with
  | nil => rfl
  | cons e es ih =>
    obtain ⟨k₀, v₀⟩ := e
    rw [List.map_cons, lookupItem, lookupItem, ih]
    split_ifs <;> rfl

/-- Where no key is twice, the order of the items does not matter. -/
theorem lookupItem_perm {es es' : List (κ × ν)} (hn : (es.map Prod.fst).Nodup) (h : es.Perm es')
    (k : κ) : lookupItem k es = lookupItem k es' := by
  have hn' : (es'.map Prod.fst).Nodup := (h.map Prod.fst).nodup_iff.mp hn
  ext v
  rw [lookupItem_eq_some hn, lookupItem_eq_some hn', h.mem_iff]

/-! ## Operations -/

/-- `d.get(k)`. -/
def get? (d : Dict κ ν) (k : κ) : Option ν := lookupItem k d.entries

/-- `d.get(k, default)`. -/
def getD (d : Dict κ ν) (k : κ) (default : ν) : ν := (d.get? k).getD default

/-- `k in d`. -/
def contains (d : Dict κ ν) (k : κ) : Bool := (d.get? k).isSome

/-- `d[k] = v`. -/
def set (d : Dict κ ν) (k : κ) (v : ν) : Dict κ ν := ⟨setItem k v d.entries, nodup_setItem d.nodup⟩

/-- `d.pop(k, None)` as a change of `d`. -/
def erase (d : Dict κ ν) (k : κ) : Dict κ ν :=
  ⟨d.entries.filter fun e => e.1 ≠ k, d.nodup.sublist (List.filter_sublist.map _)⟩

/-- `d.update(e)`. -/
def update (d e : Dict κ ν) : Dict κ ν := e.entries.foldl (fun d p => d.set p.1 p.2) d

/-- `for k in ks: d.pop(k, None)`. -/
def eraseAll (d : Dict κ ν) (ks : List κ) : Dict κ ν := ks.foldl erase d

/-- `{k: v for k in ks}`. -/
def ofKeys (ks : List κ) (v : ν) : Dict κ ν := ks.foldl (fun d k => d.set k v) ∅

/-- `dict(list(d.items())[-n:])` for a positive `n`. -/
def lastItems (d : Dict κ ν) (n : ℕ) : Dict κ ν :=
  ⟨d.entries.drop (d.entries.length - n), d.nodup.sublist ((List.drop_sublist _ _).map _)⟩

@[simp] theorem get?_empty (k : κ) : (∅ : Dict κ ν).get? k = none := rfl

theorem get?_mapValues {μ : Type*} (f : ν → μ) (d : Dict κ ν) (k : κ) :
    (d.mapValues f).get? k = (d.get? k).map f := lookupItem_map f k d.entries

@[grind =] theorem get?_set (d : Dict κ ν) (k k' : κ) (v : ν) :
    (d.set k v).get? k' = if k' = k then some v else d.get? k' :=
  lookupItem_setItem k k' v d.entries

@[grind =] theorem get?_erase (d : Dict κ ν) (k k' : κ) :
    (d.erase k).get? k' = if k' = k then none else d.get? k' :=
  lookupItem_filter k k' d.entries

/-- Popping a key that is absent changes nothing. -/
theorem erase_of_none {d : Dict κ ν} {k : κ} (h : d.get? k = none) : d.erase k = d := by
  have hentries : d.entries.filter (fun e => e.1 ≠ k) = d.entries := by
    refine List.filter_eq_self.mpr fun e he => ?_
    have hk : k ∉ d.entries.map Prod.fst := lookupItem_eq_none.mp h
    simpa using fun hek : e.1 = k => hk (hek ▸ List.mem_map_of_mem he)
  unfold erase
  simp only [hentries]

theorem get?_eraseAll (d : Dict κ ν) (ks : List κ) (k : κ) :
    (d.eraseAll ks).get? k = if k ∈ ks then none else d.get? k := by
  unfold eraseAll
  induction ks generalizing d with
  | nil => simp
  | cons k' ks ih =>
    rw [List.foldl_cons, ih, get?_erase]
    simp only [List.mem_cons]
    split_ifs <;> simp_all

theorem get?_eq_some {d : Dict κ ν} {k : κ} {v : ν} : d.get? k = some v ↔ (k, v) ∈ d.entries :=
  lookupItem_eq_some d.nodup

theorem get?_eq_none {d : Dict κ ν} {k : κ} : d.get? k = none ↔ k ∉ d.keys := lookupItem_eq_none

theorem contains_iff_mem {d : Dict κ ν} {k : κ} : d.contains k = true ↔ k ∈ d.keys := by
  unfold contains
  rw [Option.isSome_iff_ne_none, Ne, get?_eq_none, not_not]

theorem mem_keys_iff {d : Dict κ ν} {k : κ} : k ∈ d.keys ↔ ∃ v, d.get? k = some v := by
  rw [← contains_iff_mem, contains, Option.isSome_iff_exists]

omit [DecidableEq κ] in
theorem lastItems_of_le {d : Dict κ ν} {n : ℕ} (h : d.len ≤ n) : d.lastItems n = d := by
  unfold lastItems
  simp only [show d.entries.length - n = 0 from Nat.sub_eq_zero_of_le h, List.drop_zero]

/-- The last items are items. -/
theorem get?_of_lastItems {d : Dict κ ν} {n : ℕ} {k : κ} {v : ν}
    (h : (d.lastItems n).get? k = some v) : d.get? k = some v :=
  get?_eq_some.mpr (List.mem_of_mem_drop (get?_eq_some.mp h))

theorem getD_set (d : Dict κ ν) (k k' : κ) (v w : ν) :
    (d.set k v).getD k' w = if k' = k then v else d.getD k' w := by
  unfold getD
  rw [get?_set]
  split_ifs <;> rfl

@[simp] theorem getD_empty (k : κ) (w : ν) : (∅ : Dict κ ν).getD k w = w := rfl

/-- What holds of all values and of the new one holds of all values after `d[k] = v`. -/
theorem forall_value_set {Q : ν → Prop} {d : Dict κ ν} {k : κ} {v : ν}
    (h : ∀ e ∈ d.entries, Q e.2) (hv : Q v) : ∀ e ∈ (d.set k v).entries, Q e.2 := by
  rintro ⟨k', w⟩ he
  rw [← get?_eq_some, get?_set] at he
  split_ifs at he with hk
  · exact Option.some.inj he ▸ hv
  · exact h (k', w) (get?_eq_some.mp he)

theorem keys_set (d : Dict κ ν) (k : κ) (v : ν) :
    (d.set k v).keys = if k ∈ d.keys then d.keys else d.keys ++ [k] :=
  map_fst_setItem k v d.entries

theorem mem_keys_set {d : Dict κ ν} {k k' : κ} {v : ν} :
    k' ∈ (d.set k v).keys ↔ k' = k ∨ k' ∈ d.keys := by
  rw [keys_set]
  split_ifs with h
  · exact ⟨Or.inr, fun hk => hk.elim (fun e => e ▸ h) id⟩
  · rw [List.mem_append, List.mem_singleton, or_comm]

/-- A new key goes last. -/
theorem entries_set_of_none {d : Dict κ ν} {k : κ} (h : d.get? k = none) (v : ν) :
    (d.set k v).entries = d.entries ++ [(k, v)] := setItem_of_notMem v (get?_eq_none.mp h)

theorem mem_keys_foldl_set {v : ν} {ks : List κ} {d : Dict κ ν} {k : κ} :
    k ∈ (ks.foldl (fun d k => d.set k v) d).keys ↔ k ∈ ks ∨ k ∈ d.keys := by
  induction ks generalizing d with
  | nil => simp
  | cons k' ks ih =>
    rw [List.foldl_cons, ih, mem_keys_set, List.mem_cons]
    tauto

theorem mem_keys_ofKeys {v : ν} {ks : List κ} {k : κ} : k ∈ (ofKeys ks v).keys ↔ k ∈ ks := by
  unfold ofKeys
  rw [mem_keys_foldl_set]
  exact or_iff_left List.not_mem_nil

theorem getD_ofKeys (ks : List κ) (v : ν) (k : κ) : (ofKeys ks v).getD k v = v := by
  have hfold : ∀ d : Dict κ ν, d.getD k v = v →
      (ks.foldl (fun d k => d.set k v) d).getD k v = v := by
    induction ks with
    | nil => exact fun d hd => hd
    | cons k' ks ih =>
      intro d hd
      refine ih _ ?_
      rw [getD_set, hd, ite_self]
  exact hfold ∅ rfl

theorem len_set (d : Dict κ ν) (k : κ) (v : ν) :
    (d.set k v).len = if k ∈ d.keys then d.len else d.len + 1 := by
  rw [← length_keys, keys_set]
  split_ifs
  · exact length_keys d
  · rw [List.length_append, length_keys, List.length_singleton]

theorem get?_foldl_set {es : List (κ × ν)} (hn : (es.map Prod.fst).Nodup) (d : Dict κ ν) (k : κ) :
    (es.foldl (fun d p => d.set p.1 p.2) d).get? k = (lookupItem k es).or (d.get? k) := by
  induction es generalizing d with
  | nil => simp [lookupItem]
  | cons e es ih =>
    obtain ⟨k₀, v₀⟩ := e
    rw [List.map_cons, List.nodup_cons] at hn
    rw [List.foldl_cons, ih hn.2, get?_set]
    by_cases h : k₀ = k
    · subst h
      have hnone : lookupItem k₀ es = none := lookupItem_eq_none.mpr hn.1
      simp [lookupItem, hnone]
    · simp [lookupItem, h, Ne.symm h]

/-- After `d.update(e)` the items of `e` shadow those of `d`. -/
theorem get?_update (d e : Dict κ ν) (k : κ) : (d.update e).get? k = (e.get? k).or (d.get? k) :=
  get?_foldl_set e.nodup d k

/-! ## Sums over the values -/

/-- `sum(f(v) for v in d.values())`. -/
def sum (f : ν → ℕ) (d : Dict κ ν) : ℕ := (d.entries.map fun e => f e.2).sum

/-- `sum(f(v) for v in d.values())`, with the addition of any type. -/
def sumBy {M : Type*} [AddMonoid M] (f : ν → M) (d : Dict κ ν) : M :=
  (d.entries.map fun e => f e.2).sum

theorem sumBy_setItem {M : Type*} [AddCommMonoid M] (f : ν → M) (k : κ) (v : ν)
    (es : List (κ × ν)) :
    ((setItem k v es).map fun e => f e.2).sum + (lookupItem k es).elim 0 f =
      (es.map fun e => f e.2).sum + f v := by
  induction es with
  | nil => simp [setItem, lookupItem]
  | cons e es ih =>
    obtain ⟨k', v'⟩ := e
    by_cases h : k' = k
    · simp only [setItem, lookupItem, if_pos h, List.map_cons, List.sum_cons, Option.elim_some]
      rw [add_right_comm, add_comm (f v), add_right_comm]
    · simp only [setItem, lookupItem, if_neg h, List.map_cons, List.sum_cons]
      rw [add_assoc, ih, ← add_assoc]

/-- What `d[k] = v` changes in a sum over the values. -/
theorem sumBy_set {M : Type*} [AddCommMonoid M] (f : ν → M) (d : Dict κ ν) (k : κ) (v : ν) :
    (d.set k v).sumBy f + (d.get? k).elim 0 f = d.sumBy f + f v :=
  sumBy_setItem f k v d.entries

/-- Replacing the value under `k`, or `z` if there is none, by one that counts `c` more. -/
theorem sumBy_set_of_add {M : Type*} [AddCancelCommMonoid M] {f : ν → M} {z : ν}
    (hz : f z = 0) (d : Dict κ ν) {k : κ} {v : ν} {c : M}
    (hv : f v = f (d.getD k z) + c) : (d.set k v).sumBy f = d.sumBy f + c := by
  have hset := sumBy_set f d k v
  have hold : (d.get? k).elim 0 f = f (d.getD k z) := by
    unfold getD
    cases d.get? k with
    | none => exact hz.symm
    | some w => rfl
  rw [hold, hv, ← add_assoc, add_right_comm] at hset
  exact add_right_cancel hset

/-- `d[k] = d.get(k, 0) + c` adds `c` to the sum of the values. -/
theorem sumBy_add {M : Type*} [AddCancelCommMonoid M] (d : Dict κ M) (k : κ) (c : M) :
    (d.set k (d.getD k 0 + c)).sumBy id = d.sumBy id + c :=
  sumBy_set_of_add (f := id) (z := 0) rfl d rfl

omit [DecidableEq κ] in
theorem sumBy_mapValues {M μ : Type*} [AddMonoid M] (f : μ → M) (g : ν → μ) (d : Dict κ ν) :
    (d.mapValues g).sumBy f = d.sumBy fun v => f (g v) := by
  unfold sumBy mapValues
  rw [List.map_map]
  rfl

omit [DecidableEq κ] in
theorem sumBy_congr {M : Type*} [AddMonoid M] {f g : ν → M} {d : Dict κ ν}
    (h : ∀ e ∈ d.entries, f e.2 = g e.2) : d.sumBy f = d.sumBy g := by
  unfold sumBy
  rw [List.map_congr_left h]

variable (f : ν → ℕ)

theorem sum_filter {k : κ} {es : List (κ × ν)} (hn : (es.map Prod.fst).Nodup) :
    ((es.filter fun e => e.1 ≠ k).map fun e => f e.2).sum + (lookupItem k es).elim 0 f =
      (es.map fun e => f e.2).sum := by
  induction es with
  | nil => rfl
  | cons e es ih =>
    obtain ⟨k', v'⟩ := e
    rw [List.map_cons, List.nodup_cons] at hn
    have hrest := ih hn.2
    by_cases h : k' = k
    · have hnone : lookupItem k es = none := lookupItem_eq_none.mpr (h ▸ hn.1)
      rw [hnone, Option.elim_none] at hrest
      rw [List.filter_cons_of_neg (by simpa using h), lookupItem, if_pos h, List.map_cons,
        List.sum_cons, Option.elim_some]
      dsimp only
      omega
    · rw [List.filter_cons_of_pos (by simpa using h), lookupItem, if_neg h, List.map_cons,
        List.map_cons, List.sum_cons, List.sum_cons]
      omega

/-- What `d.pop(k, None)` takes away. -/
theorem sum_erase (d : Dict κ ν) (k : κ) : (d.erase k).sum f + (d.get? k).elim 0 f = d.sum f :=
  sum_filter f d.nodup

/-- What `d[k] = v` adds to the other values. -/
theorem sum_set (d : Dict κ ν) (k : κ) (v : ν) : (d.set k v).sum f = (d.erase k).sum f + f v := by
  have hset : (d.set k v).sum f + (d.get? k).elim 0 f = d.sum f + f v := sumBy_set f d k v
  have herase := sum_erase f d k
  omega

end Dict

end Py
