import Mathlib.Data.List.Basic
import Mathlib.Order.Lattice

/-!
# Sorting by a key

`v.sort_by(|a, b| b.key.cmp(&a.key))` is the stable sort by descending key: the result has the items
of `v`, greater keys first, and items of one key in the order they had (`stableDesc_sortByDesc`).
-/

namespace Rust

variable {α κ : Type*} [LinearOrder κ] (key : α → κ)

/-- `v.sort_by(|a, b| b.key.cmp(&a.key))`. -/
def sortByDesc (v : List α) : List α := v.mergeSort fun a b => decide (key b ≤ key a)

/-- `w` is the stable sort of `v` by descending key. -/
structure StableDesc (v w : List α) : Prop where
  perm : w.Perm v
  sorted : w.Pairwise fun a b => key b ≤ key a
  stable : ∀ k, w.filter (fun a => key a = k) = v.filter fun a => key a = k

theorem desc_trans (a b c : α) (hab : decide (key b ≤ key a) = true)
    (hbc : decide (key c ≤ key b) = true) : decide (key c ≤ key a) = true :=
  decide_eq_true (le_trans (of_decide_eq_true hbc) (of_decide_eq_true hab))

theorem desc_total (a b : α) : (decide (key b ≤ key a) || decide (key a ≤ key b)) = true := by
  rcases le_total (key a) (key b) with h | h <;> simp [h]

/-- The items of one key keep their order. -/
theorem filter_sortByDesc (v : List α) (k : κ) :
    (sortByDesc key v).filter (fun a => key a = k) = v.filter fun a => key a = k := by
  have hpair : (v.filter fun a => key a = k).Pairwise fun a b => decide (key b ≤ key a) = true := by
    apply List.pairwise_of_forall_mem_list
    intro a ha b hb
    apply decide_eq_true
    rw [of_decide_eq_true (List.mem_filter.mp ha).2, of_decide_eq_true (List.mem_filter.mp hb).2]
  have hsub : (v.filter fun a => key a = k).Sublist (sortByDesc key v) :=
    List.sublist_mergeSort (desc_trans key) (desc_total key) hpair List.filter_sublist
  have hfilter := hsub.filter fun a => decide (key a = k)
  rw [List.filter_filter] at hfilter
  simp only [Bool.and_self] at hfilter
  have hperm : (sortByDesc key v).Perm v := List.mergeSort_perm _ _
  exact (hfilter.eq_of_length (hperm.filter _).length_eq.symm).symm

theorem stableDesc_sortByDesc (v : List α) : StableDesc key v (sortByDesc key v) where
  perm := List.mergeSort_perm _ _
  sorted := (List.pairwise_mergeSort (desc_trans key) (desc_total key) v).imp of_decide_eq_true
  stable := filter_sortByDesc key v

end Rust
