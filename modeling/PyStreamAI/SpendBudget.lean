import Mathlib.Algebra.Order.BigOperators.Group.Finset
import Mathlib.Algebra.Order.Group.MinMax
import Mathlib.Tactic.Ring
import PyStreamAI.CostTracking

/-!
# The budget with many clients

Each client asks first and records later, so between the two the others may ask and record as well.
While `k` clients share a manager, what the admitted ones may still record is part of the bound
(`Bounded`): an admission happens within the budget, and from then on every client adds its cost once
at most. The flag `blocked` is set past the budget only, and costs only grow until a reset.
-/

open Py Machine

namespace PyStreamAI

open SpendManager (a100Request)

/-- A manager with its clients, each admitted or not. -/
structure SpendClients (ι : Type) where
  manager : SpendManager
  admitted : ι → Bool

/-- What can happen next: a client asks, an admitted client records, the month ends. -/
inductive ClientAction (ι : Type)
  | check (i : ι) (modelId : String)
  | record (i : ι) (metric : CostMetric)
  | reset

namespace SpendClients

variable {ι : Type} [DecidableEq ι]

/-- The clients of a new manager on a tracker of its own. -/
def init (pricing : Pricing) (monthlyBudget : ℚ) : SpendClients ι :=
  ⟨.new { pricing } monthlyBudget, fun _ => false⟩

/-- Client `i` asks, unless it has an admission to use. -/
def check (s : SpendClients ι) (i : ι) (modelId : String) : SpendClients ι :=
  if s.admitted i then s
  else
    let (allowed, manager) := s.manager.shouldAllowRequest modelId
    ⟨manager, Function.update s.admitted i (allowed.toOption.getD false)⟩

/-- Client `i` uses its admission. -/
def record (s : SpendClients ι) (i : ι) (metric : CostMetric) : SpendClients ι :=
  if s.admitted i then
    ⟨(s.manager.record metric).2, Function.update s.admitted i false⟩
  else s

/-- The clients after an action. -/
def step (s : SpendClients ι) : ClientAction ι → SpendClients ι
  | .check i modelId => s.check i modelId
  | .record i metric => s.record i metric
  | .reset => { s with manager := s.manager.resetMonthlyBudget }

/-- The tracked total. -/
def total (s : SpendClients ι) : ℚ := s.manager.tracker.getTotalCost

/-- The action records no cost outside `[0, c]`. -/
def CostsWithin (pricing : Pricing) (c : ℚ) : ClientAction ι → Prop
  | .record _ metric => ∀ cost, metric.calculateCost pricing = .ok cost → 0 ≤ cost ∧ cost ≤ c
  | _ => True

/-! ## The manager -/

/-- What a manager keeps: the threshold is 80% of the budget, and only spending past the budget
blocks. -/
structure Guarded (pricing : Pricing) (monthlyBudget : ℚ) (m : SpendManager) : Prop where
  pricing : m.tracker.pricing = pricing
  budget : m.monthlyBudget = monthlyBudget
  threshold : m.alertThreshold = monthlyBudget * (8 / 10)
  nonneg : 0 ≤ m.tracker.getTotalCost
  overspent : m.blocked = true → monthlyBudget < m.tracker.getTotalCost

section Manager

variable {pricing : Pricing} {monthlyBudget c : ℚ} {m : SpendManager}

/-- Asking never raises. It is refused exactly past the budget, and a refusal blocks. -/
theorem Guarded.shouldAllowRequest (h : Guarded pricing monthlyBudget m) (modelId : String) :
    m.shouldAllowRequest modelId = (.ok (decide (m.tracker.getTotalCost ≤ monthlyBudget)),
      { m with blocked := decide (monthlyBudget < m.tracker.getTotalCost) }) := by
  obtain rfl := h.budget
  unfold SpendManager.shouldAllowRequest
  by_cases hb : m.blocked = true
  · have hover := h.overspent hb
    have hblocked : m = { m with blocked := true } := by rw [← hb]
    rw [if_pos hb, decide_eq_false (not_le.mpr hover), decide_eq_true hover, ← hblocked]
  · have hfree : m = { m with blocked := false } := by
      rw [Bool.not_eq_true] at hb
      rw [← hb]
    rw [if_neg hb]
    dsimp only
    by_cases hover : m.monthlyBudget < m.tracker.getTotalCost
    · rw [if_pos hover, decide_eq_false (not_le.mpr hover), decide_eq_true hover]
    · have hdiv : ¬ (m.alertThreshold < m.tracker.getTotalCost ∧ m.monthlyBudget = 0) := by
        rintro ⟨halert, hzero⟩
        rw [h.threshold, hzero, zero_mul] at halert
        exact hover (hzero ▸ halert)
      rw [if_neg hover, if_neg hdiv, decide_eq_true (not_lt.mp hover), decide_eq_false hover,
        ← hfree]

theorem Guarded.check (h : Guarded pricing monthlyBudget m) (modelId : String) :
    Guarded pricing monthlyBudget (m.shouldAllowRequest modelId).2 := by
  rw [h.shouldAllowRequest]
  exact ⟨h.pricing, h.budget, h.threshold, h.nonneg, of_decide_eq_true⟩

/-- Recording raises and changes nothing, or adds a cost that is not negative. -/
theorem Guarded.record (h : Guarded pricing monthlyBudget m) {metric : CostMetric}
    (hcost : ∀ cost, metric.calculateCost pricing = .ok cost → 0 ≤ cost) :
    Guarded pricing monthlyBudget (m.record metric).2 := by
  unfold SpendManager.record
  rcases m.tracker.recordInference_cases metric with
    ⟨e, -, hrec⟩ | ⟨cost, t, hok, hrec, hpricing, htotal, -⟩
  · rw [hrec]
    exact h
  · rw [h.pricing] at hok
    have hge := hcost cost hok
    rw [hrec]
    refine ⟨hpricing.trans h.pricing, h.budget, h.threshold, ?_, fun hb => ?_⟩
    · show 0 ≤ t.getTotalCost
      rw [htotal]
      exact add_nonneg h.nonneg hge
    · show monthlyBudget < t.getTotalCost
      rw [htotal]
      exact lt_add_of_lt_of_nonneg (h.overspent hb) hge

theorem Guarded.reset (h : Guarded pricing monthlyBudget m) :
    Guarded pricing monthlyBudget m.resetMonthlyBudget :=
  ⟨h.pricing, h.budget, h.threshold, le_refl (0 : ℚ), fun hb => by cases hb⟩

end Manager

/-! ## The clients -/

section Clients

variable {pricing : Pricing} {monthlyBudget c : ℚ} {s : SpendClients ι}

theorem Guarded.step (h : Guarded pricing monthlyBudget s.manager) {a : ClientAction ι}
    (ha : CostsWithin pricing c a) : Guarded pricing monthlyBudget (s.step a).manager := by
  cases a with
  | check i modelId =>
    show Guarded pricing monthlyBudget (s.check i modelId).manager
    unfold SpendClients.check
    split_ifs
    · exact h
    · exact h.check modelId
  | record i metric =>
    show Guarded pricing monthlyBudget (s.record i metric).manager
    unfold SpendClients.record
    split_ifs
    · exact h.record fun cost hok => (ha cost hok).1
    · exact h
  | reset => exact h.reset

variable [Fintype ι]

/-- The number of admitted clients. -/
def pending (s : SpendClients ι) : ℕ := ∑ i, (s.admitted i).toNat

omit [DecidableEq ι] in
theorem pending_le_card (s : SpendClients ι) : s.pending ≤ Fintype.card ι := by
  have hle : s.pending ≤ ∑ _i : ι, 1 := Finset.sum_le_sum fun i _ => Bool.toNat_le _
  rwa [Finset.sum_const, smul_eq_mul, mul_one] at hle

theorem pending_update (m : SpendManager) (i : ι) (b : Bool) :
    (⟨m, Function.update s.admitted i b⟩ : SpendClients ι).pending + (s.admitted i).toNat =
      s.pending + b.toNat :=
  sum_update (fun _ b => b.toNat) s.admitted i b

/-- What is spent and what the admitted clients may still record. Costs that are never negative and
at most `c < 0` cannot be recorded. -/
def Bounded (monthlyBudget c : ℚ) (s : SpendClients ι) : Prop :=
  (0 ≤ c ∧ s.total + s.pending * c ≤ monthlyBudget + Fintype.card ι * c) ∨
    s.total = 0 ∧ (s.pending = 0 ∨ c < 0)

omit [DecidableEq ι] in
theorem Bounded.total_le (h : Bounded monthlyBudget c s) :
    s.total ≤ max 0 (monthlyBudget + Fintype.card ι * c) := by
  rcases h with ⟨hc, hle⟩ | ⟨hzero, -⟩
  · have hpending : 0 ≤ (s.pending : ℚ) * c := mul_nonneg (Nat.cast_nonneg _) hc
    exact le_max_of_le_right (by linarith)
  · exact le_max_of_le_left hzero.le

/-- An admission is within the budget, so there is room for one more cost. -/
theorem Bounded.check (hg : Guarded pricing monthlyBudget s.manager) (h : Bounded monthlyBudget c s)
    (i : ι) (modelId : String) : Bounded monthlyBudget c (s.check i modelId) := by
  unfold SpendClients.check
  split_ifs with hi
  · exact h
  · rw [hg.shouldAllowRequest]
    dsimp only [Except.toOption, Option.getD_some]
    have hp := s.pending_update
      { s.manager with blocked := decide (monthlyBudget < s.manager.tracker.getTotalCost) } i
      (decide (s.manager.tracker.getTotalCost ≤ monthlyBudget))
    rw [Bool.not_eq_true] at hi
    rw [hi] at hp
    set t : SpendClients ι :=
      ⟨{ s.manager with blocked := decide (monthlyBudget < s.manager.tracker.getTotalCost) },
        Function.update s.admitted i (decide (s.manager.tracker.getTotalCost ≤ monthlyBudget))⟩
    have htotal : t.total = s.total := rfl
    by_cases hle : s.manager.tracker.getTotalCost ≤ monthlyBudget
    · by_cases hc : 0 ≤ c
      · refine .inl ⟨hc, ?_⟩
        have hcard : (t.pending : ℚ) ≤ Fintype.card ι := by exact_mod_cast t.pending_le_card
        have hbudget : t.total ≤ monthlyBudget := hle
        have hmul := mul_le_mul_of_nonneg_right hcard hc
        linarith
      · rcases h with ⟨hc', -⟩ | ⟨hzero, -⟩
        · exact absurd hc' hc
        · exact .inr ⟨hzero, .inr (not_le.mp hc)⟩
    · rw [decide_eq_false hle, Bool.toNat_false] at hp
      have hsame : t.pending = s.pending := hp
      unfold Bounded
      rw [htotal, hsame]
      exact h

/-- The cost that is recorded is covered by the admission that is used up. -/
theorem Bounded.record (hg : Guarded pricing monthlyBudget s.manager)
    (h : Bounded monthlyBudget c s) {i : ι} {metric : CostMetric}
    (ha : CostsWithin pricing c (.record i metric)) :
    Bounded monthlyBudget c (s.record i metric) := by
  unfold SpendClients.record
  split_ifs with hi
  · have hp := s.pending_update (s.manager.record metric).2 i false
    rw [hi, Bool.toNat_true, Bool.toNat_false] at hp
    set t : SpendClients ι := ⟨(s.manager.record metric).2, Function.update s.admitted i false⟩
      with ht
    have hpending : (t.pending : ℚ) + 1 = s.pending := by exact_mod_cast hp
    have hcost : t.total = s.total ∨ ∃ cost, 0 ≤ cost ∧ cost ≤ c ∧ t.total = s.total + cost := by
      rw [ht]
      unfold total SpendManager.record
      rcases s.manager.tracker.recordInference_cases metric with
        ⟨e, -, hrec⟩ | ⟨cost, t', hok, hrec, -, htotal, -⟩
      · exact .inl (by rw [hrec])
      · rw [hg.pricing] at hok
        obtain ⟨hge, hle⟩ := ha cost hok
        exact .inr ⟨cost, hge, hle, by rw [hrec]; exact htotal⟩
    rcases h with ⟨hc, hle⟩ | ⟨hzero, hnone⟩
    · refine .inl ⟨hc, ?_⟩
      rw [← hpending] at hle
      rcases hcost with hsame | ⟨cost, -, hcle, hadd⟩ <;> linarith
    · have hc : c < 0 := hnone.resolve_left (by omega)
      rcases hcost with hsame | ⟨cost, hge, hcle, -⟩
      · exact .inr ⟨hsame.trans hzero, .inr hc⟩
      · linarith
  · exact h

omit [DecidableEq ι] in
theorem Bounded.reset (hg : Guarded pricing monthlyBudget s.manager)
    (h : Bounded monthlyBudget c s) :
    Bounded monthlyBudget c { s with manager := s.manager.resetMonthlyBudget } := by
  have htotal : ({ s with manager := s.manager.resetMonthlyBudget } : SpendClients ι).total = 0 :=
    rfl
  rcases h with ⟨hc, hle⟩ | ⟨-, hnone⟩
  · have hnonneg : 0 ≤ s.total := hg.nonneg
    refine .inl ⟨hc, ?_⟩
    rw [htotal]
    show 0 + (s.pending : ℚ) * c ≤ _
    linarith
  · exact .inr ⟨htotal, hnone⟩

theorem Bounded.step (hg : Guarded pricing monthlyBudget s.manager) (h : Bounded monthlyBudget c s)
    {a : ClientAction ι} (ha : CostsWithin pricing c a) : Bounded monthlyBudget c (s.step a) := by
  cases a with
  | check i modelId => exact h.check hg i modelId
  | record i metric => exact h.record hg ha
  | reset => exact h.reset hg

end Clients

/-! ## Schedules -/

theorem blocked_step {s : SpendClients ι} (hb : s.manager.blocked = true) {a : ClientAction ι}
    (ha : a ≠ .reset) : (s.step a).manager.blocked = true := by
  cases a with
  | check i modelId =>
    show (s.check i modelId).manager.blocked = true
    unfold check SpendManager.shouldAllowRequest
    split_ifs <;> exact hb
  | record i metric =>
    show (s.record i metric).manager.blocked = true
    unfold record
    split_ifs <;> exact hb
  | reset => exact absurd rfl ha

/-- Once blocked, blocked until the next reset. -/
theorem blocked_run {s : SpendClients ι} (hb : s.manager.blocked = true)
    {tr : List (ClientAction ι)} (htr : ClientAction.reset ∉ tr) :
    (run step s tr).manager.blocked = true := by
  induction tr generalizing s with
  | nil => exact hb
  | cons a tr ih =>
    rw [List.mem_cons, not_or] at htr
    exact ih (blocked_step hb (Ne.symm htr.1)) htr.2

section Runs

variable [Fintype ι] {pricing : Pricing} {c : ℚ} (monthlyBudget : ℚ) {tr : List (ClientAction ι)}

theorem bounded_run (htr : ∀ a ∈ tr, CostsWithin pricing c a) :
    Guarded pricing monthlyBudget (run step (init pricing monthlyBudget) tr).manager ∧
      Bounded monthlyBudget c (run step (init pricing monthlyBudget) tr) := by
  refine (along_of_forall htr).history (P := fun _ (s : SpendClients ι) =>
    Guarded pricing monthlyBudget s.manager ∧ Bounded monthlyBudget c s) ?_ ?_
  · have hpending : (init pricing monthlyBudget : SpendClients ι).pending = 0 :=
      Finset.sum_eq_zero fun _ _ => rfl
    exact ⟨⟨rfl, rfl, rfl, le_refl (0 : ℚ), fun hb => by cases hb⟩, .inr ⟨rfl, .inl hpending⟩⟩
  · exact fun pre a h ha => ⟨h.1.step ha, h.2.step h.1 ha⟩

/-- **Budget.** With `k` clients that record costs between 0 and `c`, at most one for each admission,
the total stays within `max(0, monthly_budget + k * c)`. Asking is refused exactly past the budget,
on which the flag never disagrees, and after a refusal everybody is refused until a reset. -/
theorem budget_enforced (htr : ∀ a ∈ tr, CostsWithin pricing c a) (modelId : String) :
    let s := run step (init pricing monthlyBudget : SpendClients ι) tr
    let (allowed, manager) := s.manager.shouldAllowRequest modelId
    s.total ≤ max 0 (monthlyBudget + Fintype.card ι * c) ∧
      allowed = .ok (decide (s.total ≤ monthlyBudget)) ∧
      (s.manager.blocked = true → monthlyBudget < s.total) ∧
      (allowed = .ok false → ∀ later, ClientAction.reset ∉ later → ∀ modelId',
        ((run step { s with manager } later).manager.shouldAllowRequest modelId').1 =
          .ok false) := by
  intro s
  obtain ⟨hg, hb⟩ : Guarded pricing monthlyBudget s.manager ∧ Bounded monthlyBudget c s :=
    bounded_run monthlyBudget htr
  rw [hg.shouldAllowRequest]
  refine ⟨hb.total_le, rfl, hg.overspent, fun hfalse later hlater modelId' => ?_⟩
  have hover : ¬ s.total ≤ monthlyBudget := of_decide_eq_false (Except.ok.inj hfalse)
  have hblocked := blocked_run (s := { s with manager := { s.manager with
    blocked := decide (monthlyBudget < s.manager.tracker.getTotalCost) } })
    (decide_eq_true (not_le.mp hover)) hlater
  unfold SpendManager.shouldAllowRequest
  rw [if_pos hblocked]

end Runs

/-- Both clients ask while nothing is spent, then both record. -/
def bothAdmitted : List (ClientAction Bool) :=
  [.check false "m1", .check true "m1", .record false a100Request, .record true a100Request]

/-- Two admitted requests overrun a budget of 0 by both of their costs. -/
theorem budget_enforced_bothAdmitted :
    let s := run step (init {} 0) bothAdmitted
    s.total ≤ max 0 (0 + (Fintype.card Bool : ℚ) * (169 / 3600000)) ∧
      (s.manager.shouldAllowRequest "m1").1 = .ok (decide (s.total ≤ 0)) := by
  have hcost : (a100Request.calculateCost {}).toOption = some (169 / 3600000) := by decide +kernel
  have hwithin : ∀ cost, a100Request.calculateCost {} = .ok cost →
      0 ≤ cost ∧ cost ≤ 169 / 3600000 := by
    intro cost hok
    rw [hok] at hcost
    obtain rfl : cost = 169 / 3600000 := Option.some.inj hcost
    norm_num
  have hall : ∀ a ∈ bothAdmitted, CostsWithin {} (169 / 3600000) a := by
    simpa [bothAdmitted, CostsWithin] using hwithin
  have h := budget_enforced 0 hall "m1"
  exact ⟨h.1, h.2.1⟩

end SpendClients

end PyStreamAI
