import Mathlib.Order.Basic
import PyStreamAI.Machine

/-!
# Infinite schedules

`stateAt` runs an infinite schedule. What every action outside a set leaves alone is still there at
the next action of that set (`exists_next`). A measure that falls again and again until a goal is
reached reaches it (`eventually_of_descent`), and one that never rises settles (`exists_settled`).
-/

namespace Machine

variable {σ α β : Type*} (step : σ → α → σ) (s : σ) (sched : ℕ → α)

/-- The state after the first `n` actions of a schedule. -/
def stateAt (n : ℕ) : σ := run step s ((List.range n).map sched)

@[simp] theorem stateAt_zero : stateAt step s sched 0 = s := rfl

theorem stateAt_succ (n : ℕ) :
    stateAt step s sched (n + 1) = step (stateAt step s sched n) (sched n) := by
  unfold stateAt
  rw [List.range_succ, List.map_append, List.map_singleton, run_snoc]

/-- Actions of `P` come again and again. -/
def Recurring (P : α → Prop) : Prop := ∀ n, ∃ m, n ≤ m ∧ P (sched m)

variable {step s sched}

/-- What a step never undoes holds from then on. -/
theorem stateAt_mono {I : σ → Prop} {n : ℕ} (hn : I (stateAt step s sched n))
    (hstep : ∀ m, n ≤ m → I (stateAt step s sched m) →
      I (step (stateAt step s sched m) (sched m))) {m : ℕ} (hm : n ≤ m) :
    I (stateAt step s sched m) := by
  induction m, hm using Nat.le_induction with
  | base => exact hn
  | succ m hm ih =>
    rw [stateAt_succ]
    exact hstep m hm ih

theorem stateAt_antitone {μ : σ → ℕ} (hstep : ∀ m, μ (stateAt step s sched (m + 1)) ≤
    μ (stateAt step s sched m)) {n m : ℕ} (hm : n ≤ m) :
    μ (stateAt step s sched m) ≤ μ (stateAt step s sched n) := by
  induction m, hm using Nat.le_induction with
  | base => exact le_rfl
  | succ m hm ih => exact (hstep m).trans ih

/-- A measure that no step raises is constant in the end. -/
theorem exists_settled {μ : σ → ℕ} (hstep : ∀ m, μ (stateAt step s sched (m + 1)) ≤
    μ (stateAt step s sched m)) :
    ∃ n, ∀ m, n ≤ m → μ (stateAt step s sched m) = μ (stateAt step s sched n) := by
  obtain ⟨_, ⟨n, rfl⟩, hmin⟩ := wellFounded_lt.has_min
    (Set.range fun n => μ (stateAt step s sched n)) ⟨_, 0, rfl⟩
  refine ⟨n, fun m hm => le_antisymm (stateAt_antitone hstep hm) ?_⟩
  exact not_lt.mp (hmin _ ⟨m, rfl⟩)

/-- A schedule whose steps lead where another system goes from the moment `n` on. -/
theorem stateAt_follow {step' : σ → β → σ} {sched' : ℕ → β} {n : ℕ}
    (h : ∀ m, step' (stateAt step s sched (n + m)) (sched' m) =
      stateAt step s sched (n + m + 1)) (m : ℕ) :
    stateAt step' (stateAt step s sched n) sched' m = stateAt step s sched (n + m) := by
  induction m with
  | zero => rfl
  | succ m ih => rw [stateAt_succ, ih, h, Nat.add_assoc]

/-- What the actions outside `P` leave alone is still there at the next action of `P`. -/
theorem exists_next {P : α → Prop} (hP : Recurring sched P) {f : σ → β}
    (hkeep : ∀ s a, ¬P a → f (step s a) = f s) (n : ℕ) :
    ∃ m, n ≤ m ∧ P (sched m) ∧ f (stateAt step s sched m) = f (stateAt step s sched n) := by
  classical
  have hex : ∃ d, P (sched (n + d)) := by
    obtain ⟨m, hm, ha⟩ := hP n
    obtain ⟨d, rfl⟩ := Nat.exists_eq_add_of_le hm
    exact ⟨d, ha⟩
  have hkept : ∀ d, (∀ e, e < d → ¬P (sched (n + e))) →
      f (stateAt step s sched (n + d)) = f (stateAt step s sched n) := by
    intro d
    induction d with
    | zero => exact fun _ => rfl
    | succ d ih =>
      intro hd
      rw [← Nat.add_assoc, stateAt_succ, hkeep _ _ (hd d (Nat.lt_succ_self d))]
      exact ih fun e he => hd e (he.trans (Nat.lt_succ_self d))
  exact ⟨n + Nat.find hex, Nat.le_add_right _ _, Nat.find_spec hex,
    hkept _ fun e he => Nat.find_min hex he⟩

/-- A measure that falls whenever the goal is not reached leads to the goal. -/
theorem eventually_of_descent {μ : σ → ℕ} {Q : σ → Prop}
    (hfall : ∀ n, ¬Q (stateAt step s sched n) →
      ∃ m, n ≤ m ∧ μ (stateAt step s sched m) < μ (stateAt step s sched n)) (n : ℕ) :
    ∃ m, n ≤ m ∧ Q (stateAt step s sched m) := by
  induction hk : μ (stateAt step s sched n) using Nat.strong_induction_on generalizing n with
  | _ k ih =>
    by_cases hQ : Q (stateAt step s sched n)
    · exact ⟨n, le_rfl, hQ⟩
    · obtain ⟨m, hm, hlt⟩ := hfall n hQ
      obtain ⟨m', hm', hQ'⟩ := ih _ (hk ▸ hlt) m rfl
      exact ⟨m', hm.trans hm', hQ'⟩

end Machine
