import Mathlib.Data.List.DropRight
import PyStreamAI.CostTracking
import PyStreamAI.Py.GroupBy

/-!
# What the cost reports say

The tracker keeps sums, the reports read them back. Over a whole history, with resets in between, the
cost of a model is that of all its requests, and the cost of a day is that of its requests since the
last reset (`reports_run`). So are the metrics, from which the budget status and the recommendations
come. A manager is blocked when it was asked past the budget since the last reset.
-/

open Py Machine

namespace PyStreamAI

namespace CostTracker

/-- Get cost for a specific day, by default the day of `now`. -/
def getDailyCost (t : CostTracker) (date : Option String) (now : Datetime) : ℚ :=
  t.dailyCosts.getD (date.getD (dateKey now)) 0

/-- Get total cost for a model. -/
def getModelCost (t : CostTracker) (modelId : String) : ℚ := t.modelCosts.getD modelId 0

end CostTracker

/-- `get_budget_status()`. -/
structure BudgetStatus where
  monthlyBudgetUsd : ℚ
  totalSpentUsd : ℚ
  remainingUsd : ℚ
  percentUsed : ℚ
  isBlocked : Bool
  requestsProcessed : ℕ
  deriving DecidableEq

/-- Get current budget status. -/
def SpendManager.getBudgetStatus (s : SpendManager) : Except Error BudgetStatus :=
  let totalCost := s.tracker.getTotalCost
  let remaining := s.monthlyBudget - totalCost
  if s.monthlyBudget = 0 then .error ⟨"ZeroDivisionError", "float division by zero"⟩
  else .ok
      { monthlyBudgetUsd := s.monthlyBudget
        totalSpentUsd := totalCost
        remainingUsd := max 0 remaining
        percentUsed := totalCost / s.monthlyBudget * 100
        isBlocked := s.blocked
        requestsProcessed := s.tracker.metrics.length }

/-! ## Recommendations -/

structure CostRecommendation where
  type : String
  message : String
  potentialSavings : String
  deriving DecidableEq

namespace CostOptimizer

def gpuDowngrade : CostRecommendation where
  type := "gpu_downgrade"
  message := "Consider using A100 or L4 instead of H100 - lower cost, similar performance"
  potentialSavings := "60-80%"

def batching : CostRecommendation where
  type := "batching"
  message := "Increase batch size to reduce per-sample compute cost"
  potentialSavings := "30-50%"

def caching : CostRecommendation where
  type := "caching"
  message := "Enable model caching to reduce repeated load times"
  potentialSavings := "10-20%"

/-- `max(d.values(), default=0)` of counts. -/
def maxValue (d : Dict String ℕ) : ℕ := (d.entries.map Prod.snd).foldr max 0

/-- Get cost optimization recommendations. -/
def getRecommendations (tracker : CostTracker) : List CostRecommendation :=
  if tracker.metrics = [] then []
  else
    let gpuCosts := Dict.addInto CostMetric.gpuType (fun _ => 1) ∅ tracker.metrics
    let avgBatchSize : ℚ :=
      ((tracker.metrics.map CostMetric.batchSize).sum : ℤ) / tracker.metrics.length
    let modelRequests := Dict.addInto CostMetric.modelId (fun _ => 1) ∅ tracker.metrics
    (if gpuCosts.contains "H100" ∧ 10 < gpuCosts.getD "H100" 0 then [gpuDowngrade] else []) ++
      (if avgBatchSize < 4 then [batching] else []) ++
      if 100 < maxValue modelRequests then [caching] else []

/-- What is recommended for some metrics: a cheaper GPU when more than 10 are for an H100, larger
batches when they have fewer than 4 samples on average, caching when more than 100 are of one
model. -/
def advice (metrics : List CostMetric) : List CostRecommendation :=
  (if 10 < metrics.countP (fun m => m.gpuType = "H100") then [gpuDowngrade] else []) ++
    (if (metrics.map CostMetric.batchSize).sum < 4 * metrics.length then [batching] else []) ++
    if ∃ m ∈ metrics, 100 < metrics.countP (fun m' => m'.modelId = m.modelId) then [caching] else []

theorem lt_maxValue_iff {d : Dict String ℕ} {n : ℕ} :
    n < maxValue d ↔ ∃ k v, (k, v) ∈ d.entries ∧ n < v := by
  unfold maxValue
  induction d.entries with
  | nil => simp
  | cons e es ih =>
    rw [List.map_cons, List.foldr_cons, lt_max_iff, ih]
    constructor
    · rintro (h | ⟨k, v, hmem, h⟩)
      · exact ⟨e.1, e.2, List.mem_cons_self, h⟩
      · exact ⟨k, v, List.mem_cons_of_mem e hmem, h⟩
    · rintro ⟨k, v, hmem, h⟩
      rcases List.mem_cons.mp hmem with rfl | hmem
      · exact .inl h
      · exact .inr ⟨k, v, hmem, h⟩

/-- The counts are those of the metrics. -/
theorem getRecommendations_eq (tracker : CostTracker) :
    getRecommendations tracker = advice tracker.metrics := by
  unfold getRecommendations
  by_cases hnil : tracker.metrics = []
  · rw [if_pos hnil, hnil]
    rfl
  · rw [if_neg hnil]
    generalize tracker.metrics = metrics at hnil
    have hlen : (0 : ℚ) < metrics.length := Nat.cast_pos.mpr (List.length_pos_of_ne_nil hnil)
    have hgpu : (Dict.addInto CostMetric.gpuType (fun _ => 1) ∅ metrics).contains "H100" ∧
          10 < (Dict.addInto CostMetric.gpuType (fun _ => 1) ∅ metrics).getD "H100" 0 ↔
        10 < metrics.countP (fun m => m.gpuType = "H100") := by
      rw [Dict.getD_count]
      refine and_iff_right_of_imp fun hmany => ?_
      obtain ⟨m, hm, hgpu⟩ := List.countP_pos_iff.mp (Nat.zero_lt_of_lt hmany)
      unfold Dict.addInto
      rw [Dict.contains_iff_mem, Dict.mem_keys_foldInto]
      exact .inr ⟨m, hm, of_decide_eq_true hgpu⟩
    have hbatch : ((metrics.map CostMetric.batchSize).sum : ℚ) / metrics.length < 4 ↔
        (metrics.map CostMetric.batchSize).sum < 4 * metrics.length := by
      rw [div_lt_iff₀ hlen]
      exact_mod_cast Iff.rfl
    have hmodel : 100 < maxValue (Dict.addInto CostMetric.modelId (fun _ => 1) ∅ metrics) ↔
        ∃ m ∈ metrics, 100 < metrics.countP (fun m' => m'.modelId = m.modelId) := by
      rw [lt_maxValue_iff]
      constructor
      · rintro ⟨k, v, hmem, hv⟩
        have hget := Dict.get?_eq_some.mpr hmem
        obtain ⟨⟨m, hm, rfl⟩, -⟩ := (Dict.mem_entries_foldInto _ _ _ _).mp hmem
        have hcount := Dict.getD_count CostMetric.modelId metrics m.modelId
        unfold Dict.getD at hcount
        rw [hget] at hcount
        exact ⟨m, hm, hcount ▸ hv⟩
      · rintro ⟨m, hm, hv⟩
        have hkey : m.modelId ∈ (Dict.addInto CostMetric.modelId (fun _ => 1) ∅ metrics).keys :=
          (Dict.mem_keys_foldInto _ _ _ _ _ _).mpr (.inr ⟨m, hm, rfl⟩)
        obtain ⟨v, hget⟩ := Dict.mem_keys_iff.mp hkey
        have hcount := Dict.getD_count CostMetric.modelId metrics m.modelId
        unfold Dict.getD at hcount
        rw [hget] at hcount
        rw [← hcount] at hv
        exact ⟨m.modelId, v, Dict.get?_eq_some.mp hget, hv⟩
    simp only [hgpu, hbatch, hmodel, advice]

/-- The order of the metrics does not matter. -/
theorem advice_perm {metrics metrics' : List CostMetric} (h : metrics.Perm metrics') :
    advice metrics = advice metrics' := by
  unfold advice
  simp only [h.countP_eq, (h.map _).sum_eq, h.length_eq, h.mem_iff]

end CostOptimizer

/-! ## Histories -/

namespace SpendManager

/-- A call on a manager or its tracker. -/
inductive Call
  | spend (op : SpendOp)
  | check (modelId : String)

/-- The manager after a call, whether or not the call raised. -/
def call (s : SpendManager) : Call → SpendManager
  | .spend op => s.step op
  | .check modelId => (s.shouldAllowRequest modelId).2

/-- A metric that was recorded, with its cost. -/
def Call.billed? (pricing : Pricing) : Call → Option (CostMetric × ℚ)
  | .spend (.record metric) => (metric.calculateCost pricing).toOption.map fun cost => (metric, cost)
  | .spend .reset => none
  | .check _ => none

def Call.isReset : Call → Bool
  | .spend .reset => true
  | .spend (.record _) => false
  | .check _ => false

/-- What was billed in a history. -/
def billed (pricing : Pricing) (tr : List Call) : List (CostMetric × ℚ) :=
  tr.filterMap (Call.billed? pricing)

/-- The history since the last reset. -/
def month (tr : List Call) : List Call := tr.rtakeWhile fun c => !c.isReset

/-- The sum of what was billed. -/
def spent (bills : List (CostMetric × ℚ)) : ℚ := (bills.map Prod.snd).sum

/-- In the month someone asked when more than the budget was spent. -/
def AskedPastBudget (pricing : Pricing) (monthlyBudget : ℚ) (tr : List Call) : Prop :=
  ∃ pre modelId, pre ++ [.check modelId] <+: month tr ∧ monthlyBudget < spent (billed pricing pre)

/-- The manager keeps the sums of what was billed. -/
structure Books (pricing : Pricing) (monthlyBudget : ℚ) (tr : List Call) (s : SpendManager) :
    Prop where
  prices : s.tracker.pricing = pricing
  budget : s.monthlyBudget = monthlyBudget
  metrics : s.tracker.metrics = (billed pricing (month tr)).map Prod.fst
  daily : s.tracker.dailyCosts =
    Dict.addInto (fun b : CostMetric × ℚ => dateKey b.1.timestamp) Prod.snd ∅
      (billed pricing (month tr))
  model : s.tracker.modelCosts =
    Dict.addInto (fun b : CostMetric × ℚ => b.1.modelId) Prod.snd ∅ (billed pricing tr)
  total : s.tracker.getTotalCost = spent (billed pricing (month tr))
  blocked : s.blocked = true ↔ AskedPastBudget pricing monthlyBudget tr

variable {pricing : Pricing} {monthlyBudget : ℚ} {tr : List Call} {s : SpendManager}

theorem month_snoc (tr : List Call) (c : Call) :
    month (tr ++ [c]) = if c.isReset then [] else month tr ++ [c] := by
  unfold month
  rw [List.rtakeWhile_concat]
  cases c.isReset <;> rfl

theorem billed_snoc (tr : List Call) (c : Call) :
    billed pricing (tr ++ [c]) = billed pricing tr ++ (c.billed? pricing).toList := by
  unfold billed
  rw [List.filterMap_append, List.filterMap_cons]
  cases c.billed? pricing <;> rfl

theorem spent_append (bills bills' : List (CostMetric × ℚ)) :
    spent (bills ++ bills') = spent bills + spent bills' := by
  unfold spent
  rw [List.map_append, List.sum_append]

/-- Only asking past the budget, and a reset, change whether someone asked past it. -/
theorem askedPastBudget_snoc (tr : List Call) (c : Call) :
    AskedPastBudget pricing monthlyBudget (tr ++ [c]) ↔
      c.isReset = false ∧ (AskedPastBudget pricing monthlyBudget tr ∨
        (∃ modelId, c = .check modelId) ∧ monthlyBudget < spent (billed pricing (month tr))) := by
  unfold AskedPastBudget
  rw [month_snoc]
  cases hreset : c.isReset with
  | true => simp
  | false =>
    simp only [Bool.false_eq_true, if_false, List.prefix_concat_iff, true_and]
    constructor
    · rintro ⟨pre, modelId, heq | hpre, hover⟩
      · obtain ⟨rfl, hc⟩ := List.append_inj' heq rfl
        exact .inr ⟨⟨modelId, (List.cons.inj hc).1.symm⟩, hover⟩
      · exact .inl ⟨pre, modelId, hpre, hover⟩
    · rintro (⟨pre, modelId, hpre, hover⟩ | ⟨⟨modelId, rfl⟩, hover⟩)
      · exact ⟨pre, modelId, .inr hpre, hover⟩
      · exact ⟨month tr, modelId, .inl rfl, hover⟩

theorem shouldAllowRequest_snd (s : SpendManager) (modelId : String) :
    (s.shouldAllowRequest modelId).2 =
      { s with blocked := s.blocked || decide (s.monthlyBudget < s.tracker.getTotalCost) } := by
  unfold shouldAllowRequest
  dsimp only
  cases hb : s.blocked with
  | true =>
    rw [if_pos rfl, Bool.true_or, ← hb]
  | false =>
    rw [if_neg Bool.false_ne_true, Bool.false_or]
    by_cases hover : s.monthlyBudget < s.tracker.getTotalCost
    · rw [if_pos hover, decide_eq_true hover]
    · have hsame : s = { s with blocked := false } := by rw [← hb]
      rw [if_neg hover, decide_eq_false hover, ← hsame]
      split_ifs <;> rfl

theorem books_new (pricing : Pricing) (monthlyBudget : ℚ) :
    Books pricing monthlyBudget [] (new { pricing } monthlyBudget) where
  prices := rfl
  budget := rfl
  metrics := rfl
  daily := rfl
  model := rfl
  total := rfl
  blocked := by simp [new, AskedPastBudget, month]

/-- A call that bills nothing and leaves the tracker as it is. -/
theorem Books.unbilled (h : Books pricing monthlyBudget tr s) {c : Call} {s' : SpendManager}
    (hreset : c.isReset = false) (hbill : c.billed? pricing = none)
    (htracker : s'.tracker = s.tracker) (hbudget : s'.monthlyBudget = s.monthlyBudget)
    (hblocked : s'.blocked = true ↔ AskedPastBudget pricing monthlyBudget (tr ++ [c])) :
    Books pricing monthlyBudget (tr ++ [c]) s' := by
  have hbilled (l : List Call) : billed pricing (l ++ [c]) = billed pricing l := by
    rw [billed_snoc, hbill]
    exact List.append_nil _
  have hmonth : billed pricing (month (tr ++ [c])) = billed pricing (month tr) := by
    rw [month_snoc, hreset, if_neg Bool.false_ne_true, hbilled]
  constructor
  · rw [htracker]
    exact h.prices
  · rw [hbudget]
    exact h.budget
  · rw [htracker, hmonth]
    exact h.metrics
  · rw [htracker, hmonth]
    exact h.daily
  · rw [htracker, hbilled]
    exact h.model
  · rw [htracker, hmonth]
    exact h.total
  · exact hblocked

theorem Books.check (h : Books pricing monthlyBudget tr s) (modelId : String) :
    Books pricing monthlyBudget (tr ++ [.check modelId]) (s.call (.check modelId)) := by
  rw [show s.call (.check modelId) = _ from shouldAllowRequest_snd s modelId]
  refine h.unbilled rfl rfl rfl rfl ?_
  rw [askedPastBudget_snoc, ← h.blocked, ← h.total, ← h.budget]
  simp [Call.isReset]

theorem Books.reset (h : Books pricing monthlyBudget tr s) :
    Books pricing monthlyBudget (tr ++ [.spend .reset]) (s.call (.spend .reset)) := by
  have hmonth : month (tr ++ [.spend .reset]) = [] := month_snoc tr _
  constructor
  · exact h.prices
  · exact h.budget
  · rw [hmonth]
    rfl
  · rw [hmonth]
    rfl
  · rw [billed_snoc]
    exact h.model.trans (congrArg _ (List.append_nil _).symm)
  · rw [hmonth]
    rfl
  · rw [askedPastBudget_snoc]
    simp [call, step, resetMonthlyBudget, Call.isReset]

theorem Books.record (h : Books pricing monthlyBudget tr s) (metric : CostMetric) :
    Books pricing monthlyBudget (tr ++ [.spend (.record metric)])
      (s.call (.spend (.record metric))) := by
  have hmonth : month (tr ++ [.spend (.record metric)]) = month tr ++ [.spend (.record metric)] :=
    month_snoc tr _
  have hasked : AskedPastBudget pricing monthlyBudget (tr ++ [.spend (.record metric)]) ↔
      AskedPastBudget pricing monthlyBudget tr := by
    rw [askedPastBudget_snoc]
    simp [Call.isReset]
  cases hcost : metric.calculateCost pricing with
  | error e =>
    have herror : (s.record metric).1 = .error e := by
      unfold SpendManager.record CostTracker.recordInference
      rw [h.prices, hcost]
    have hsame : s.call (.spend (.record metric)) = s := record_of_error herror
    rw [hsame]
    refine h.unbilled rfl ?_ rfl rfl (h.blocked.trans hasked.symm)
    rw [Call.billed?, hcost]
    rfl
  | ok cost =>
    have hbilled (l : List Call) :
        billed pricing (l ++ [.spend (.record metric)]) = billed pricing l ++ [(metric, cost)] := by
      rw [billed_snoc, Call.billed?, hcost]
      rfl
    have hnext : s.call (.spend (.record metric)) =
        { s with tracker := { s.tracker with
          metrics := s.tracker.metrics ++ [metric]
          dailyCosts := s.tracker.dailyCosts.set (dateKey metric.timestamp)
            (s.tracker.dailyCosts.getD (dateKey metric.timestamp) 0 + cost)
          modelCosts := s.tracker.modelCosts.set metric.modelId
            (s.tracker.modelCosts.getD metric.modelId 0 + cost) } } := by
      show ({ s with tracker := (s.tracker.recordInference metric).2 } : SpendManager) = _
      unfold CostTracker.recordInference
      rw [← h.prices] at hcost
      rw [hcost]
    rw [hnext]
    constructor
    · exact h.prices
    · exact h.budget
    · rw [hmonth, hbilled, List.map_append, ← h.metrics]
      rfl
    · rw [hmonth, hbilled, Dict.addInto, Dict.foldInto_snoc]
      dsimp only
      rw [h.daily]
      rfl
    · rw [hbilled, Dict.addInto, Dict.foldInto_snoc]
      dsimp only
      rw [h.model]
      rfl
    · rw [hmonth, hbilled, spent_append, ← h.total]
      exact (Dict.sumBy_add _ _ _).trans (congrArg _ (by simp [spent]))
    · rw [hasked]
      exact h.blocked

theorem books_run (pricing : Pricing) (monthlyBudget : ℚ) (tr : List Call) :
    Books pricing monthlyBudget tr (run call (new { pricing } monthlyBudget) tr) := by
  refine run_history (books_new pricing monthlyBudget) (fun tr s h c => ?_) tr
  cases c with
  | check modelId => exact h.check modelId
  | spend op =>
    cases op with
    | record metric => exact h.record metric
    | reset => exact h.reset

/-- **Reports.** What the reports say after any history: the cost of a model is that of all its
requests, the cost of a day that of its requests since the last reset. The status sums up the same
month, and is blocked when someone asked past the budget in it. The recommendations are those for the
metrics of the month, in whatever order they came. -/
theorem reports_run (pricing : Pricing) (monthlyBudget : ℚ) (tr : List Call) :
    let s := run call (new { pricing } monthlyBudget) tr
    let bills := billed pricing (month tr)
    (∀ modelId, s.tracker.getModelCost modelId =
      spent ((billed pricing tr).filter fun b => b.1.modelId = modelId)) ∧
    (∀ date now, s.tracker.getDailyCost date now =
      spent (bills.filter fun b => dateKey b.1.timestamp = date.getD (dateKey now))) ∧
    (s.getBudgetStatus =
      if monthlyBudget = 0 then .error ⟨"ZeroDivisionError", "float division by zero"⟩
      else .ok
          { monthlyBudgetUsd := monthlyBudget
            totalSpentUsd := spent bills
            remainingUsd := max 0 (monthlyBudget - spent bills)
            percentUsed := spent bills / monthlyBudget * 100
            isBlocked := s.blocked
            requestsProcessed := bills.length }) ∧
    (s.blocked = true ↔ AskedPastBudget pricing monthlyBudget tr) ∧
    ∀ metrics, metrics.Perm (bills.map Prod.fst) →
      CostOptimizer.getRecommendations s.tracker = CostOptimizer.advice metrics := by
  intro s bills
  have h : Books pricing monthlyBudget tr s := books_run pricing monthlyBudget tr
  refine ⟨fun modelId => ?_, fun date now => ?_, ?_, h.blocked, fun metrics hperm => ?_⟩
  · unfold CostTracker.getModelCost
    rw [h.model, Dict.getD_addInto]
    rfl
  · unfold CostTracker.getDailyCost
    rw [h.daily]
    exact Dict.getD_addInto _ _ _ _
  · unfold getBudgetStatus
    dsimp only
    rw [h.budget, h.total, h.metrics, List.length_map]
  · rw [CostOptimizer.getRecommendations_eq, h.metrics]
    exact (CostOptimizer.advice_perm hperm).symm

end SpendManager

end PyStreamAI
