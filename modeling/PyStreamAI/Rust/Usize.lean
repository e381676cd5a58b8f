import Mathlib.Algebra.BigOperators.Group.List.Basic
import Mathlib.Algebra.Ring.Nat
import Mathlib.Data.List.Infix
import PyStreamAI.Rust.U32

/-!
# Checked `usize` products

The product of a `Vec<usize>` of 64 bits in a build with overflow checks. The factors are multiplied
one after the other, so the product of every prefix has to be in range, also when a later factor is
zero.
-/

namespace Rust

namespace Usize

/-- `a * b`. -/
def checkedMul (a b : UInt64) : Except Fault UInt64 :=
  checked (a.toNat * b.toNat < 2 ^ 64) .mulOverflow (a * b)

/-- `iter().product::<usize>()`. -/
def checkedProduct (xs : List UInt64) : Except Fault UInt64 := xs.foldlM checkedMul 1

/-- The product of the values. -/
def product (xs : List UInt64) : ℕ := (xs.map UInt64.toNat).prod

theorem checkedMul_eq_ok {a b c : UInt64} :
    checkedMul a b = .ok c ↔ a.toNat * b.toNat < 2 ^ 64 ∧ c.toNat = a.toNat * b.toNat := by
  unfold checkedMul checked
  split_ifs with h
  · rw [and_iff_right h, Except.ok.injEq, ← UInt64.toNat_inj, UInt64.toNat_mul, Nat.mod_eq_of_lt h]
    exact eq_comm
  · refine iff_of_false (fun he => ?_) fun he => h he.1
    cases he

theorem le_of_checkedMul_eq_error {a b : UInt64} {e : Fault} (h : checkedMul a b = .error e) :
    2 ^ 64 ≤ a.toNat * b.toNat := by
  by_contra hlt
  have hok := checkedMul_eq_ok.mpr
    ⟨not_le.mp hlt, UInt64.toNat_ofNat_of_lt' (not_le.mp hlt)⟩
  rw [h] at hok
  cases hok

theorem foldlM_checkedMul_eq_ok {xs : List UInt64} {a c : UInt64} :
    xs.foldlM checkedMul a = .ok c ↔
      (∀ p, p <+: xs → a.toNat * product p < 2 ^ 64) ∧ c.toNat = a.toNat * product xs := by
  induction xs generalizing a with
  | nil =>
    rw [List.foldlM_nil, pure_eq_ok, ← UInt64.toNat_inj]
    simp only [product, List.prefix_nil, forall_eq, List.map_nil, List.prod_nil, Nat.mul_one]
    exact ⟨fun h => ⟨a.toNat_lt, h.symm⟩, fun h => h.2.symm⟩
  | cons x xs ih =>
    rw [List.foldlM_cons]
    cases hmul : checkedMul a x with
    | error e =>
      refine iff_of_false (fun he => by cases he) fun h => ?_
      have hlt := h.1 [x] ⟨xs, rfl⟩
      rw [product, List.map_singleton, List.prod_singleton] at hlt
      exact absurd hlt (not_lt.mpr (le_of_checkedMul_eq_error hmul))
    | ok b =>
      obtain ⟨hlt, hb⟩ := checkedMul_eq_ok.mp hmul
      have hcons : ∀ p, a.toNat * product (x :: p) = b.toNat * product p := by
        intro p
        rw [hb, product, product, List.map_cons, List.prod_cons, Nat.mul_assoc]
      refine ih.trans ?_
      rw [hcons xs]
      refine and_congr_left fun _ => ⟨fun h p hp => ?_, fun h p hp => ?_⟩
      · rcases List.prefix_cons_iff.mp hp with rfl | ⟨q, rfl, hq⟩
        · simpa [product] using a.toNat_lt
        · rw [hcons q]
          exact h q hq
      · rw [← hcons p]
        exact h (x :: p) (List.cons_prefix_cons.mpr ⟨rfl, hp⟩)

/-- A product has a result when the product of every prefix is in range. -/
theorem checkedProduct_eq_ok {xs : List UInt64} {c : UInt64} :
    checkedProduct xs = .ok c ↔ (∀ p, p <+: xs → product p < 2 ^ 64) ∧ c.toNat = product xs := by
  unfold checkedProduct
  rw [foldlM_checkedMul_eq_ok, UInt64.toNat_one]
  simp only [Nat.one_mul]

theorem le_of_checkedProduct_eq_error {xs : List UInt64} {e : Fault}
    (h : checkedProduct xs = .error e) : ∃ p, p <+: xs ∧ 2 ^ 64 ≤ product p := by
  by_contra hno
  have hlt : ∀ p, p <+: xs → product p < 2 ^ 64 := fun p hp =>
    not_le.mp fun hle => hno ⟨p, hp, hle⟩
  have hok := checkedProduct_eq_ok.mpr
    ⟨hlt, UInt64.toNat_ofNat_of_lt' (hlt xs List.prefix_rfl)⟩
  rw [h] at hok
  cases hok

end Usize

end Rust
