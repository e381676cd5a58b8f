import Mathlib.Tactic.Linarith
import PyStreamAI.Machine
import PyStreamAI.Py.Basic
import PyStreamAI.Py.Dict

/-!
# Cost tracking

`record_inference` keeps three accounts of one spend: by day, by model, and the metrics themselves.
`reset_monthly_budget`, of the spend manager, clears the first and the last. So the accounts agree
as long as every reset comes when nothing is spent (`ledgersAgree_iff`). Amounts are exact.
-/

open Py Machine

namespace PyStreamAI

/-! ## Pricing -/

/-- Token prices, USD per million. -/
structure TokenRate where
  input : ℚ
  output : ℚ

/-- `GPU_PRICING`, USD per hour. -/
def gpuPricing : Dict String ℚ where
  entries := [("H100", 318 / 100), ("A100", 169 / 100), ("L4", 35 / 100), ("V100", 90 / 100),
    ("T4", 35 / 100), ("RTX4090", 50 / 100)]
  nodup := by decide

/-- `TOKEN_PRICING`. -/
def tokenPricing : Dict String TokenRate where
  entries := [("gpt-4", ⟨3 / 100, 6 / 100⟩), ("gpt-3.5-turbo", ⟨5 / 10000, 15 / 10000⟩),
    ("claude-2", ⟨8 / 1000, 24 / 1000⟩), ("llama-2", ⟨0, 0⟩)]
  nodup := by decide

/-- Pricing configuration. -/
structure Pricing where
  gpuPricing : Dict String ℚ := PyStreamAI.gpuPricing
  tokenPricing : Dict String TokenRate := PyStreamAI.tokenPricing

namespace Pricing

/-- Get GPU cost per millisecond. -/
def getGpuCostPerMs (p : Pricing) (gpuType : String) : ℚ :=
  p.gpuPricing.getD gpuType 1 / (3600 * 1000)

/-- Get token cost. -/
def getTokenCost (p : Pricing) (inputTokens outputTokens : ℤ) (model : String := "llama-2") : ℚ :=
  match p.tokenPricing.get? model with
  | none => 0
  | some rate => inputTokens / 1000000 * rate.input + outputTokens / 1000000 * rate.output

end Pricing

/-- Cost per inference request. -/
structure CostMetric where
  modelId : String
  gpuType : String
  latencyMs : ℚ
  batchSize : ℤ
  inputTokens : ℤ
  outputTokens : ℤ
  timestamp : Datetime

/-- Calculate cost for this request, per sample of its batch. -/
def CostMetric.calculateCost (m : CostMetric) (pricing : Pricing) : Except Error ℚ :=
  let computeCost := pricing.getGpuCostPerMs m.gpuType * m.latencyMs
  let tokenCost := pricing.getTokenCost m.inputTokens m.outputTokens
  let total := computeCost + tokenCost
  if m.batchSize = 0 then .error ⟨"ZeroDivisionError", "float division by zero"⟩
  else .ok (total / m.batchSize)

/-- `d.strftime("%Y-%m-%d")`. -/
def dateKey (d : Datetime) : String :=
  decPad 4 d.year ++ "-" ++ decPad 2 d.month ++ "-" ++ decPad 2 d.day

/-! ## The tracker -/

/-- Track and manage costs. -/
structure CostTracker where
  pricing : Pricing := {}
  metrics : List CostMetric := []
  dailyCosts : Dict String ℚ := ∅
  modelCosts : Dict String ℚ := ∅

/-- `get_cost_breakdown()`. -/
structure CostBreakdown where
  totalCostUsd : ℚ
  dailyCosts : Dict String ℚ
  modelCosts : Dict String ℚ
  numRequests : ℕ
  avgCostPerRequest : ℚ

namespace CostTracker

/-- Record inference and calculate cost. -/
def recordInference (t : CostTracker) (metric : CostMetric) : Res CostTracker ℚ :=
  match metric.calculateCost t.pricing with
  | .error e => (.error e, t)
  | .ok cost =>
    let date := dateKey metric.timestamp
    (.ok cost,
      { t with
        metrics := t.metrics ++ [metric]
        dailyCosts := t.dailyCosts.set date (t.dailyCosts.getD date 0 + cost)
        modelCosts :=
          t.modelCosts.set metric.modelId (t.modelCosts.getD metric.modelId 0 + cost) })

/-- Get total cost. -/
def getTotalCost (t : CostTracker) : ℚ := t.dailyCosts.sumBy id

/-- Get detailed cost breakdown. -/
def getCostBreakdown (t : CostTracker) : CostBreakdown where
  totalCostUsd := t.getTotalCost
  dailyCosts := t.dailyCosts
  modelCosts := t.modelCosts
  numRequests := t.metrics.length
  avgCostPerRequest := if t.metrics = [] then 0 else t.getTotalCost / t.metrics.length

/-- The sum of the costs of the metrics. -/
def metricsCost (t : CostTracker) : ℚ :=
  (t.metrics.map fun m => (m.calculateCost t.pricing).toOption.getD 0).sum

/-- What recording does: it raises and changes nothing, or adds the cost to every account. -/
theorem recordInference_cases (t : CostTracker) (m : CostMetric) :
    (∃ e, m.calculateCost t.pricing = .error e ∧ t.recordInference m = (.error e, t)) ∨
      ∃ cost t', m.calculateCost t.pricing = .ok cost ∧ t.recordInference m = (.ok cost, t') ∧
        t'.pricing = t.pricing ∧ t'.getTotalCost = t.getTotalCost + cost ∧
        t'.modelCosts.sumBy id = t.modelCosts.sumBy id + cost ∧
        t'.metricsCost = t.metricsCost + cost := by
  unfold recordInference
  cases hc : m.calculateCost t.pricing with
  | error e => exact .inl ⟨e, rfl, rfl⟩
  | ok cost =>
    refine .inr ⟨cost, _, rfl, rfl, rfl, Dict.sumBy_add _ _ _, Dict.sumBy_add _ _ _, ?_⟩
    simp [metricsCost, hc, Except.toOption]

end CostTracker

/-! ## The spend manager -/

/-- Manage spending with alerts and caps. -/
structure SpendManager where
  tracker : CostTracker
  monthlyBudget : ℚ
  alertThreshold : ℚ
  blocked : Bool

namespace SpendManager

/-- `SpendManager(tracker, monthly_budget)`. -/
def new (tracker : CostTracker) (monthlyBudget : ℚ := 1000) : SpendManager :=
  ⟨tracker, monthlyBudget, monthlyBudget * (8 / 10), false⟩

/-- Check if request should be allowed based on spend. Past the alert threshold a warning is logged,
whose text divides by the budget. -/
def shouldAllowRequest (s : SpendManager) (_modelId : String) : Res SpendManager Bool :=
  if s.blocked then (.ok false, s)
  else
    let totalCost := s.tracker.getTotalCost
    if s.monthlyBudget < totalCost then (.ok false, { s with blocked := true })
    else if s.alertThreshold < totalCost ∧ s.monthlyBudget = 0 then
      (.error ⟨"ZeroDivisionError", "float division by zero"⟩, s)
    else (.ok true, s)

/-- Reset for new month. -/
def resetMonthlyBudget (s : SpendManager) : SpendManager :=
  { s with
    blocked := false
    tracker := { s.tracker with dailyCosts := ∅, metrics := [] } }

/-! ## The accounts of a run -/

/-- What can be done with a manager and its tracker. -/
inductive SpendOp
  | record (metric : CostMetric)
  | reset

/-- Record on the manager's tracker. -/
def record (s : SpendManager) (metric : CostMetric) : Res SpendManager ℚ :=
  let (r, tracker) := s.tracker.recordInference metric
  (r, { s with tracker })

/-- The manager after an operation. -/
def step (s : SpendManager) : SpendOp → SpendManager
  | .record metric => (s.record metric).2
  | .reset => s.resetMonthlyBudget

/-- The three accounts agree, so the breakdown adds up, and recording that raises changes
nothing. -/
structure LedgersAgree (s : SpendManager) : Prop where
  daily_model : s.tracker.dailyCosts.sumBy id = s.tracker.modelCosts.sumBy id
  model_metrics : s.tracker.modelCosts.sumBy id = s.tracker.metricsCost
  breakdown : s.tracker.getCostBreakdown.totalCostUsd =
    s.tracker.getCostBreakdown.modelCosts.sumBy id
  raising : ∀ m e, (s.record m).1 = .error e → (s.record m).2 = s

/-- Nothing is spent when the daily costs are cleared. -/
def ResetsNothing (s : SpendManager) : SpendOp → Prop
  | .record _ => True
  | .reset => s.tracker.dailyCosts.sumBy id = 0

instance (s : SpendManager) : ∀ op, Decidable (s.ResetsNothing op)
  | .record _ => isTrue trivial
  | .reset => inferInstanceAs (Decidable (s.tracker.dailyCosts.sumBy id = 0))

theorem record_of_error {s : SpendManager} {m : CostMetric} {e : Error}
    (h : (s.record m).1 = .error e) : (s.record m).2 = s := by
  unfold record at h ⊢
  rcases s.tracker.recordInference_cases m with ⟨e', -, hrec⟩ | ⟨cost, t', -, hrec, -⟩
  · rw [hrec]
  · rw [hrec] at h
    cases h

theorem LedgersAgree.of_sums {s : SpendManager}
    (hdaily : s.tracker.dailyCosts.sumBy id = s.tracker.modelCosts.sumBy id)
    (hmetrics : s.tracker.modelCosts.sumBy id = s.tracker.metricsCost) : s.LedgersAgree :=
  ⟨hdaily, hmetrics, hdaily, fun _ _ => record_of_error⟩

theorem LedgersAgree.record {s : SpendManager} (h : s.LedgersAgree) (m : CostMetric) :
    (s.record m).2.LedgersAgree := by
  unfold SpendManager.record
  rcases s.tracker.recordInference_cases m with
    ⟨e, -, hrec⟩ | ⟨cost, t', -, hrec, -, hdaily, hmodel, hmetrics⟩
  · rw [hrec]
    exact h
  · rw [hrec]
    have hdaily' : t'.dailyCosts.sumBy id = s.tracker.dailyCosts.sumBy id + cost := hdaily
    refine .of_sums ?_ ?_
    · show t'.dailyCosts.sumBy id = t'.modelCosts.sumBy id
      rw [hdaily', hmodel, h.daily_model]
    · show t'.modelCosts.sumBy id = t'.metricsCost
      rw [hmodel, hmetrics, h.model_metrics]

/-- From accounts that agree, a reset leads to accounts that agree only when nothing is spent. -/
theorem resetsNothing_iff {s : SpendManager} (h : s.LedgersAgree) (op : SpendOp) :
    s.ResetsNothing op ↔ (s.step op).LedgersAgree := by
  cases op with
  | record m => exact iff_of_true trivial (h.record m)
  | reset =>
    have hmodel : s.resetMonthlyBudget.tracker.modelCosts.sumBy id =
        s.tracker.dailyCosts.sumBy id := h.daily_model.symm
    constructor
    · intro hzero
      have hnone : s.resetMonthlyBudget.tracker.modelCosts.sumBy id = 0 := hmodel.trans hzero
      exact .of_sums hnone.symm hnone
    · intro hafter
      exact hmodel.symm.trans hafter.daily_model.symm

/-- **Ledgers.** Throughout a run from an empty tracker the three accounts agree, exactly when every
reset of the run comes while the daily costs sum to 0. -/
theorem ledgersAgree_iff (pricing : Pricing) (monthlyBudget : ℚ) (tr : List SpendOp) :
    (∀ pre, pre <+: tr → (run step (new { pricing } monthlyBudget) pre).LedgersAgree) ↔
      Along step ResetsNothing (new { pricing } monthlyBudget) tr := by
  refine forall_prefix_iff_along (.of_sums rfl rfl) (fun pre h op => ?_) tr
  rw [run_snoc]
  exact resetsNothing_iff h op

/-- 100 ms on an A100, on New Year's Day. -/
def a100Request : CostMetric := ⟨"m1", "A100", 100, 1, 100, 50, ⟨2026, 1, 1, 0, 0, 0, 0⟩⟩

/-- After one request and a reset the total is 0, and the costs by model are not. -/
theorem reset_keeps_modelCosts :
    let s := run step (new {}) [.record a100Request, .reset]
    s.tracker.getCostBreakdown.totalCostUsd = 0 ∧
      s.tracker.getCostBreakdown.modelCosts.sumBy id = 169 / 3600000 ∧ ¬ s.LedgersAgree := by
  have htotal : (run step (new {}) [.record a100Request, .reset]).tracker.dailyCosts.sumBy id = 0 :=
    rfl
  have hmodel : (run step (new {}) [.record a100Request, .reset]).tracker.modelCosts.sumBy id =
      169 / 3600000 := by decide +kernel
  refine ⟨htotal, hmodel, fun h => ?_⟩
  have hagree := h.daily_model
  rw [htotal, hmodel] at hagree
  norm_num at hagree

end SpendManager

end PyStreamAI
