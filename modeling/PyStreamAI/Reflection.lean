import Mathlib.Algebra.Order.Group.MinMax
import PyStreamAI.Machine

/-!
# Walks that stop at zero

A walk whose steps are cut off at zero is the free walk raised by what the free walk was short of at
its lowest point so far (`run_reflect`). So it is at zero exactly when the free walk is at its lowest
point and not above zero (`run_reflect_eq_zero_iff`), and the two walks agree as long as the free one
is never below zero (`deficit_eq_zero_iff`).
-/

open Machine

namespace Reflection

variable {α : Type*} [LinearOrder α]

theorem foldr_max_le_iff {xs : List α} {c d : α} :
    xs.foldr max d ≤ c ↔ d ≤ c ∧ ∀ x ∈ xs, x ≤ c := by
  induction xs with
  | nil => simp
  | cons x xs ih =>
    rw [List.foldr_cons, max_le_iff, ih, List.forall_mem_cons]
    exact and_left_comm

variable [AddCommGroup α]

/-- One step, cut off at zero. -/
def reflect (x a : α) : α := max 0 (x + a)

/-- What the free walk from `x` was short of zero at its lowest point. -/
def deficit (x : α) (steps : List α) : α := (steps.inits.map fun p => -(x + p.sum)).foldr max 0

theorem deficit_le_iff {x d : α} {steps : List α} :
    deficit x steps ≤ d ↔ 0 ≤ d ∧ ∀ p, p <+: steps → -(x + p.sum) ≤ d := by
  unfold deficit
  rw [foldr_max_le_iff, List.forall_mem_map]
  simp only [List.mem_inits]

theorem deficit_nonneg (x : α) (steps : List α) : 0 ≤ deficit x steps :=
  (deficit_le_iff.mp le_rfl).1

theorem neg_le_deficit {x : α} {steps p : List α} (h : p <+: steps) :
    -(x + p.sum) ≤ deficit x steps :=
  (deficit_le_iff.mp le_rfl).2 p h

theorem deficit_snoc (x : α) (steps : List α) (a : α) :
    deficit x (steps ++ [a]) = max (deficit x steps) (-(x + (steps ++ [a]).sum)) := by
  apply eq_of_forall_ge_iff
  intro d
  rw [max_le_iff, deficit_le_iff, deficit_le_iff]
  constructor
  · rintro ⟨hd, h⟩
    exact ⟨⟨hd, fun p hp => h p (hp.trans (List.prefix_append steps [a]))⟩, h _ List.prefix_rfl⟩
  · rintro ⟨⟨hd, h⟩, hlast⟩
    refine ⟨hd, fun p hp => ?_⟩
    rcases List.prefix_concat_iff.mp hp with rfl | hp
    · exact hlast
    · exact h p hp

variable [IsOrderedAddMonoid α]

/-- The walk is the free walk raised by the deficit. -/
theorem run_reflect {x : α} (hx : 0 ≤ x) (steps : List α) :
    run reflect x steps = x + steps.sum + deficit x steps := by
  induction steps using List.reverseRecOn with
  | nil =>
    have hdeficit : deficit x [] = 0 := by
      refine le_antisymm (deficit_le_iff.mpr ⟨le_rfl, fun p hp => ?_⟩) (deficit_nonneg x [])
      rw [List.prefix_nil.mp hp, List.sum_nil, add_zero]
      exact neg_nonpos.mpr hx
    rw [hdeficit, List.sum_nil, add_zero, add_zero, run_nil]
  | append_singleton steps a ih =>
    rw [run_snoc, ih, deficit_snoc, ← max_add_add_left, add_neg_cancel, reflect, max_comm,
      List.sum_append, List.sum_singleton]
    rw [← add_assoc, add_right_comm]

theorem deficit_eq_zero_iff {x : α} {steps : List α} :
    deficit x steps = 0 ↔ ∀ p, p <+: steps → 0 ≤ x + p.sum := by
  rw [← (deficit_nonneg x steps).ge_iff_eq', deficit_le_iff, and_iff_right le_rfl]
  simp only [neg_nonpos]

/-- The walk is at zero where the free walk is lowest, and not above zero. -/
theorem run_reflect_eq_zero_iff {x : α} (hx : 0 ≤ x) {steps : List α} :
    run reflect x steps = 0 ↔
      x + steps.sum ≤ 0 ∧ ∀ p, p <+: steps → x + steps.sum ≤ x + p.sum := by
  rw [run_reflect hx, ← neg_eq_iff_add_eq_zero,
    ← (neg_le_deficit (List.prefix_refl steps)).ge_iff_eq, deficit_le_iff]
  simp only [neg_nonneg, neg_le_neg_iff]

end Reflection
