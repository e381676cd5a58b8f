import Mathlib.Algebra.Order.BigOperators.Group.List
import Mathlib.Tactic.FieldSimp
import PyStreamAI.CostTracking

/-!
# The cost of a batch

`record_inference` splits the GPU cost of a batch evenly over its requests. It asks for the token
cost without naming the model, so every request gets the price of the default model, which is free:
a batch is charged in full exactly when the tokens of its requests cost nothing
(`batchCost_conserved_iff`).
-/

open Py

namespace PyStreamAI

/-- The token cost of a request at the prices of its own model. -/
def CostMetric.ownTokenCost (m : CostMetric) (pricing : Pricing) : ℚ :=
  pricing.getTokenCost m.inputTokens m.outputTokens m.modelId

namespace CostTracker

/-- What `record_inference` returns for the metrics of a batch, recorded in turn. -/
def recordAll (t : CostTracker) : List CostMetric → List (Except Error ℚ)
  | [] => []
  | m :: batch => (t.recordInference m).1 :: (t.recordInference m).2.recordAll batch

/-- The batch ran for `latencyMs` on one GPU of type `gpuType`, and is recorded as one metric per
request, for models with token prices. -/
structure RanTogether (gpuType : String) (latencyMs : ℚ) (batch : List CostMetric) : Prop where
  nonempty : batch ≠ []
  gpu : ∀ m ∈ batch, m.gpuType = gpuType
  latency : ∀ m ∈ batch, m.latencyMs = latencyMs
  size : ∀ m ∈ batch, m.batchSize = batch.length
  priced : ∀ m ∈ batch, m.modelId ∈ tokenPricing.keys

/-- The costs returned for the batch are the GPU cost of the run and the token cost of each
request. -/
def CostConserved (t : CostTracker) (gpuType : String) (latencyMs : ℚ) (batch : List CostMetric) :
    Prop :=
  ∃ costs : List ℚ, t.recordAll batch = costs.map Except.ok ∧
    costs.sum = t.pricing.getGpuCostPerMs gpuType * latencyMs +
      (batch.map fun m => m.ownTokenCost t.pricing).sum

theorem getTokenCost_default (inputTokens outputTokens : ℤ) :
    ({} : Pricing).getTokenCost inputTokens outputTokens = 0 := by
  have hfree : tokenPricing.get? "llama-2" = some ⟨0, 0⟩ := rfl
  unfold Pricing.getTokenCost
  rw [hfree]
  simp

/-- A request is charged its share of the GPU cost and nothing else. -/
theorem calculateCost_eq {m : CostMetric} (h : m.batchSize ≠ 0) :
    m.calculateCost {} =
      .ok (({} : Pricing).getGpuCostPerMs m.gpuType * m.latencyMs / m.batchSize) := by
  unfold CostMetric.calculateCost
  dsimp only
  rw [if_neg h, getTokenCost_default, add_zero]

theorem recordInference_of_ok {t : CostTracker} {m : CostMetric} {cost : ℚ}
    (h : m.calculateCost t.pricing = .ok cost) :
    (t.recordInference m).1 = .ok cost ∧ (t.recordInference m).2.pricing = t.pricing := by
  unfold recordInference
  rw [h]
  exact ⟨rfl, rfl⟩

theorem recordAll_eq {gpuType : String} {latencyMs : ℚ} {n : ℕ} (hn : n ≠ 0)
    {batch : List CostMetric}
    (h : ∀ m ∈ batch, m.gpuType = gpuType ∧ m.latencyMs = latencyMs ∧ m.batchSize = n)
    {t : CostTracker} (ht : t.pricing = {}) :
    t.recordAll batch = (List.replicate batch.length
      (({} : Pricing).getGpuCostPerMs gpuType * latencyMs / n)).map Except.ok := by
  induction batch generalizing t with
  | nil => rfl
  | cons m batch ih =>
    obtain ⟨hgpu, hlatency, hsize⟩ := h m List.mem_cons_self
    have hcost := calculateCost_eq (m := m) (by rw [hsize]; exact_mod_cast hn)
    rw [hgpu, hlatency, hsize, Int.cast_natCast, ← ht] at hcost
    obtain ⟨hfst, hpricing⟩ := recordInference_of_ok hcost
    rw [recordAll, hfst, ih (fun q hq => h q (List.mem_cons_of_mem m hq)) (hpricing.trans ht), ht]
    rfl

theorem conserved_iff_sum {t : CostTracker} (ht : t.pricing = {}) {gpuType : String}
    {latencyMs : ℚ} {batch : List CostMetric} (h : RanTogether gpuType latencyMs batch) :
    t.CostConserved gpuType latencyMs batch ↔
      (batch.map fun m => m.ownTokenCost {}).sum = 0 := by
  have hlen : batch.length ≠ 0 := fun h0 => h.nonempty (List.length_eq_zero_iff.mp h0)
  have hrecord := recordAll_eq hlen
    (fun m hm => ⟨h.gpu m hm, h.latency m hm, h.size m hm⟩) ht
  have hsum : (List.replicate batch.length
      (({} : Pricing).getGpuCostPerMs gpuType * latencyMs / batch.length)).sum =
        ({} : Pricing).getGpuCostPerMs gpuType * latencyMs := by
    have hcast : (batch.length : ℚ) ≠ 0 := by exact_mod_cast hlen
    rw [List.sum_replicate, nsmul_eq_mul]
    field_simp
  unfold CostConserved
  rw [hrecord, ht]
  constructor
  · rintro ⟨costs, hcosts, htotal⟩
    have heq := (List.map_injective_iff.mpr fun _ _ => Except.ok.inj) hcosts
    rw [← heq, hsum] at htotal
    linarith
  · intro hzero
    exact ⟨_, rfl, by rw [hsum, hzero, add_zero]⟩

/-! ## When tokens cost nothing -/

theorem rate_of_priced {model : String} (h : model ∈ tokenPricing.keys) :
    ∃ rate, tokenPricing.get? model = some rate ∧
      (model = "llama-2" ∧ rate.input = 0 ∧ rate.output = 0 ∨
        model ≠ "llama-2" ∧ 0 < rate.input ∧ 0 < rate.output) := by
  have hkeys : tokenPricing.keys = ["gpt-4", "gpt-3.5-turbo", "claude-2", "llama-2"] := rfl
  rw [hkeys] at h
  simp only [List.mem_cons, List.not_mem_nil, or_false] at h
  rcases h with rfl | rfl | rfl | rfl
  · exact ⟨_, rfl, .inr ⟨by decide, by norm_num, by norm_num⟩⟩
  · exact ⟨_, rfl, .inr ⟨by decide, by norm_num, by norm_num⟩⟩
  · exact ⟨_, rfl, .inr ⟨by decide, by norm_num, by norm_num⟩⟩
  · exact ⟨_, rfl, .inl ⟨rfl, rfl, rfl⟩⟩

/-- A request for the free model, or one without tokens. -/
def TokenFree (m : CostMetric) : Prop :=
  m.modelId = "llama-2" ∨ (m.inputTokens = 0 ∧ m.outputTokens = 0)

/-- Counts of tokens are charged something, unless the request is free. -/
theorem ownTokenCost_spec {m : CostMetric} (hmodel : m.modelId ∈ tokenPricing.keys)
    (hin : 0 ≤ m.inputTokens) (hout : 0 ≤ m.outputTokens) :
    0 ≤ m.ownTokenCost {} ∧ (m.ownTokenCost {} = 0 ↔ TokenFree m) := by
  obtain ⟨rate, hrate, hprices⟩ := rate_of_priced hmodel
  have hcost : m.ownTokenCost {} =
      m.inputTokens / 1000000 * rate.input + m.outputTokens / 1000000 * rate.output := by
    unfold CostMetric.ownTokenCost Pricing.getTokenCost
    rw [hrate]
  have hin' : (0 : ℚ) ≤ m.inputTokens := by exact_mod_cast hin
  have hout' : (0 : ℚ) ≤ m.outputTokens := by exact_mod_cast hout
  unfold TokenFree
  rcases hprices with ⟨hfree, hi, ho⟩ | ⟨hpaid, hi, ho⟩
  · have hzero : m.ownTokenCost {} = 0 := by rw [hcost, hi, ho, mul_zero, mul_zero, add_zero]
    exact ⟨hzero.ge, iff_of_true hzero (.inl hfree)⟩
  · have hi0 : 0 ≤ (m.inputTokens : ℚ) / 1000000 * rate.input :=
      mul_nonneg (div_nonneg hin' (by norm_num)) hi.le
    have ho0 : 0 ≤ (m.outputTokens : ℚ) / 1000000 * rate.output :=
      mul_nonneg (div_nonneg hout' (by norm_num)) ho.le
    refine ⟨hcost ▸ add_nonneg hi0 ho0, ?_⟩
    rw [hcost, add_eq_zero_iff_of_nonneg hi0 ho0, or_iff_right hpaid]
    simp [hi.ne', ho.ne']

/-- A batch is charged in full exactly when the token costs of its requests sum to 0; where token
counts are not negative, that is when each request is for the free model or has no tokens. -/
theorem batchCost_conserved_iff {t : CostTracker} (ht : t.pricing = {}) {gpuType : String}
    {latencyMs : ℚ} {batch : List CostMetric} (h : RanTogether gpuType latencyMs batch) :
    (t.CostConserved gpuType latencyMs batch ↔
      (batch.map fun m => m.ownTokenCost {}).sum = 0) ∧
    ((∀ m ∈ batch, 0 ≤ m.inputTokens ∧ 0 ≤ m.outputTokens) →
      (t.CostConserved gpuType latencyMs batch ↔ ∀ m ∈ batch, TokenFree m)) := by
  refine ⟨conserved_iff_sum ht h, fun hcounts => ?_⟩
  have hspec : ∀ m ∈ batch, 0 ≤ m.ownTokenCost {} ∧ (m.ownTokenCost {} = 0 ↔ TokenFree m) :=
    fun m hm => ownTokenCost_spec (h.priced m hm) (hcounts m hm).1 (hcounts m hm).2
  rw [conserved_iff_sum ht h]
  constructor
  · intro hsum m hm
    refine (hspec m hm).2.mp (List.all_zero_of_le_zero_le_of_sum_eq_zero ?_ hsum
      (List.mem_map_of_mem hm))
    intro x hx
    obtain ⟨q, hq, rfl⟩ := List.mem_map.mp hx
    exact (hspec q hq).1
  · intro hfree
    apply List.sum_eq_zero
    intro x hx
    obtain ⟨q, hq, rfl⟩ := List.mem_map.mp hx
    exact (hspec q hq).2.mpr (hfree q hq)

/-- A request of `inputTokens` tokens to `model`, alone on an A100 for 100 ms. -/
def a100Tokens (model : String) (inputTokens : ℤ) : CostMetric :=
  ⟨model, "A100", 100, 1, inputTokens, 0, ⟨2026, 1, 1, 0, 0, 0, 0⟩⟩

theorem ranTogether_a100Tokens {model : String} (h : model ∈ tokenPricing.keys) (n : ℤ) :
    RanTogether "A100" 100 [a100Tokens model n] := by
  constructor
  · simp
  all_goals
    intro m hm
    rw [List.mem_singleton.mp hm]
  · rfl
  · rfl
  · rfl
  · exact h

theorem batchCost_conserved_free :
    CostConserved {} "A100" 100 [a100Tokens "llama-2" 1000000] := by
  refine ((batchCost_conserved_iff rfl (ranTogether_a100Tokens (by decide) 1000000)).2 ?_).mpr ?_
  · intro m hm
    rw [List.mem_singleton.mp hm]
    decide
  · intro m hm
    rw [List.mem_singleton.mp hm]
    exact .inl rfl

/-- A million tokens for `gpt-4`, which cost 3 cents, are not charged. -/
theorem batchCost_lost_gpt4 :
    RanTogether "A100" 100 [a100Tokens "gpt-4" 1000000] ∧
      (a100Tokens "gpt-4" 1000000).ownTokenCost {} = 3 / 100 ∧
      ¬ CostConserved {} "A100" 100 [a100Tokens "gpt-4" 1000000] := by
  have hran : RanTogether "A100" 100 [a100Tokens "gpt-4" 1000000] :=
    ranTogether_a100Tokens (by decide) 1000000
  have hown : (a100Tokens "gpt-4" 1000000).ownTokenCost {} = 3 / 100 := by decide +kernel
  refine ⟨hran, hown, fun hconserved => ?_⟩
  have hsum := (conserved_iff_sum rfl hran).mp hconserved
  rw [List.map_singleton, List.sum_singleton, hown] at hsum
  norm_num at hsum

end CostTracker

end PyStreamAI
