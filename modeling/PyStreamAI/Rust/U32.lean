import Mathlib.Algebra.Ring.Nat
import Mathlib.Logic.Basic

/-!
# Checked `u32` arithmetic

The operators of `u32` in a build with overflow checks: a sum, product or difference out of range
is a fault, and so is a division by zero. In range they agree with the wrapping operators.
-/

namespace Rust

/-- Why a `u32` operation has no result. -/
inductive Fault
  | addOverflow
  | mulOverflow
  | subOverflow
  | divisionByZero
  deriving DecidableEq, Repr

/-- The value where the condition holds, else the fault. -/
def checked {α : Type} (p : Prop) [Decidable p] (fault : Fault) (value : α) : Except Fault α :=
  if p then .ok value else .error fault

/-- `a + b`. -/
def checkedAdd (a b : UInt32) : Except Fault UInt32 :=
  checked (a.toNat + b.toNat < 2 ^ 32) .addOverflow (a + b)

/-- `a * b`. -/
def checkedMul (a b : UInt32) : Except Fault UInt32 :=
  checked (a.toNat * b.toNat < 2 ^ 32) .mulOverflow (a * b)

/-- `a - b`. -/
def checkedSub (a b : UInt32) : Except Fault UInt32 :=
  checked (b.toNat ≤ a.toNat) .subOverflow (a - b)

/-- `a / b`. -/
def checkedDiv (a b : UInt32) : Except Fault UInt32 := checked (b ≠ 0) .divisionByZero (a / b)

/-- `iter().sum::<u32>()`. -/
def checkedSum (xs : List UInt32) : Except Fault UInt32 := xs.foldlM checkedAdd 0

variable {α β : Type} {a b : UInt32}

/-- A computation that goes on from a checked value has a result when the check passes and the rest
has it. -/
theorem checked_bind_eq_ok {p : Prop} [Decidable p] {fault : Fault} {value : α}
    {f : α → Except Fault β} {r : β} :
    (checked p fault value >>= f) = .ok r ↔ p ∧ f value = .ok r := by
  unfold checked
  by_cases h : p
  · rw [if_pos h]
    exact (and_iff_right h).symm
  · rw [if_neg h]
    constructor
    · intro he
      cases he
    · exact fun he => absurd he.1 h

theorem pure_eq_ok {x y : α} : (pure x : Except Fault α) = .ok y ↔ x = y :=
  Except.ok.injEq x y ▸ Iff.rfl

variable {f : UInt32 → Except Fault β} {r : β}

theorem checkedAdd_bind_eq_ok :
    (checkedAdd a b >>= f) = .ok r ↔ a.toNat + b.toNat < 2 ^ 32 ∧ f (a + b) = .ok r :=
  checked_bind_eq_ok

theorem checkedMul_bind_eq_ok :
    (checkedMul a b >>= f) = .ok r ↔ a.toNat * b.toNat < 2 ^ 32 ∧ f (a * b) = .ok r :=
  checked_bind_eq_ok

theorem checkedSub_bind_eq_ok :
    (checkedSub a b >>= f) = .ok r ↔ b.toNat ≤ a.toNat ∧ f (a - b) = .ok r :=
  checked_bind_eq_ok

theorem checkedDiv_bind_eq_ok :
    (checkedDiv a b >>= f) = .ok r ↔ b ≠ 0 ∧ f (a / b) = .ok r :=
  checked_bind_eq_ok

theorem foldlM_checkedAdd_eq_ok {xs : List UInt32} {c : UInt32} :
    xs.foldlM checkedAdd a = .ok c ↔
      a.toNat + (xs.map UInt32.toNat).sum < 2 ^ 32 ∧
        c.toNat = a.toNat + (xs.map UInt32.toNat).sum := by
  induction xs generalizing a with
  | nil =>
    rw [List.foldlM_nil, pure_eq_ok, List.map_nil, List.sum_nil, Nat.add_zero]
    constructor
    · rintro rfl
      exact ⟨a.toNat_lt, rfl⟩
    · exact fun h => UInt32.toNat_inj.mp h.2.symm
  | cons x xs ih =>
    rw [List.foldlM_cons, checkedAdd_bind_eq_ok, ih, List.map_cons, List.sum_cons, UInt32.toNat_add]
    omega

/-- A sum has a result when it is in range. -/
theorem checkedSum_eq_ok {xs : List UInt32} {c : UInt32} :
    checkedSum xs = .ok c ↔
      (xs.map UInt32.toNat).sum < 2 ^ 32 ∧ c.toNat = (xs.map UInt32.toNat).sum := by
  unfold checkedSum
  rw [foldlM_checkedAdd_eq_ok, UInt32.toNat_zero, Nat.zero_add]

theorem checkedSum_bind_eq_ok {xs : List UInt32} :
    (checkedSum xs >>= f) = .ok r ↔
      (xs.map UInt32.toNat).sum < 2 ^ 32 ∧ f (.ofNat (xs.map UInt32.toNat).sum) = .ok r := by
  by_cases hlt : (xs.map UInt32.toNat).sum < 2 ^ 32
  · have hok : checkedSum xs = .ok (.ofNat (xs.map UInt32.toNat).sum) :=
      checkedSum_eq_ok.mpr ⟨hlt, UInt32.toNat_ofNat_of_lt' hlt⟩
    rw [hok, and_iff_right hlt]
    rfl
  · refine iff_of_false (fun h => ?_) fun h => hlt h.1
    cases hc : checkedSum xs with
    | ok c => exact hlt (checkedSum_eq_ok.mp hc).1
    | error e =>
      rw [hc] at h
      cases h

end Rust
