import Mathlib.Data.Rat.Defs
import Mathlib.Algebra.Order.Field.Basic
import Mathlib.Algebra.Order.Field.Rat
import Mathlib.Algebra.Order.BigOperators.Group.List
import Mathlib.Order.WithBot
import Mathlib.Tactic.Linarith
import Mathlib.Tactic.NormNum
import PyStreamAI.Machine
import PyStreamAI.Py.Dict

/-!
# Metrics for the dashboard

The collector keeps every latency in one list and adds it up by model as well. `clear_old_data` cuts
the list once it holds more than 10000 latencies, and neither the errors nor the accounts by model.
A summary is consistent exactly when no call has cut anything (`selfConsistent_iff`). Latencies and
costs are exact.
-/

open Py Machine

namespace PyStreamAI

/-- The entry of one model in `model_metrics`. -/
structure ModelMetrics where
  requests : ℕ := 0
  totalLatency : ℚ := 0
  totalCost : ℚ := 0
  minLatency : WithTop ℚ := ⊤
  maxLatency : ℚ := 0

/-- One model in a summary. -/
structure ModelSummary where
  requests : ℕ
  avgLatencyMs : ℚ
  minLatencyMs : WithTop ℚ
  maxLatencyMs : ℚ
  totalCostUsd : ℚ

/-- A summary of what was recorded. -/
structure MetricsSummary where
  totalRequests : ℕ
  totalErrors : ℕ
  errorRate : ℚ
  avgLatencyMs : ℚ
  p99LatencyMs : ℚ
  minLatencyMs : ℚ
  maxLatencyMs : ℚ
  models : Dict String ModelSummary

/-- Collect and aggregate metrics. -/
structure MetricsCollector where
  latencies : List ℚ := []
  errors : List String := []
  modelMetrics : Dict String ModelMetrics := ∅

namespace MetricsCollector

/-- Record request metrics. -/
def recordRequest (c : MetricsCollector) (modelId : String) (latencyMs : ℚ) (_batchSize : ℤ)
    (costUsd : ℚ) : MetricsCollector :=
  let metrics := c.modelMetrics.getD modelId {}
  { c with
    latencies := c.latencies ++ [latencyMs]
    modelMetrics := c.modelMetrics.set modelId
      { requests := metrics.requests + 1
        totalLatency := metrics.totalLatency + latencyMs
        totalCost := metrics.totalCost + costUsd
        minLatency := min metrics.minLatency latencyMs
        maxLatency := max metrics.maxLatency latencyMs } }

/-- Record error. -/
def recordError (c : MetricsCollector) (error : String) : MetricsCollector :=
  { c with errors := c.errors ++ [error] }

/-- The summary of one model. -/
def modelSummary (metrics : ModelMetrics) : ModelSummary where
  requests := metrics.requests
  avgLatencyMs := metrics.totalLatency / metrics.requests
  minLatencyMs := metrics.minLatency
  maxLatencyMs := metrics.maxLatency
  totalCostUsd := metrics.totalCost

/-- Get metrics summary, `{}` before the first request. -/
def getSummary (c : MetricsCollector) : Option MetricsSummary :=
  if c.latencies = [] then none
  else
    let sortedLatencies := c.latencies.mergeSort
    let p99Idx := sortedLatencies.length * 99 / 100
    let totalRequests := c.latencies.length
    some
      { totalRequests
        totalErrors := c.errors.length
        errorRate := c.errors.length / totalRequests * 100
        avgLatencyMs := c.latencies.sum / totalRequests
        p99LatencyMs := sortedLatencies.getD p99Idx 0
        minLatencyMs := c.latencies.min?.getD 0
        maxLatencyMs := c.latencies.max?.getD 0
        models := (c.modelMetrics.filterValues fun m => 0 < m.requests).mapValues modelSummary }

/-- Clear old data: a cap on the number of latencies. -/
def clearOldData (c : MetricsCollector) : MetricsCollector :=
  if 10000 < c.latencies.length then
    { c with latencies := c.latencies.drop (c.latencies.length - 5000) }
  else c

/-- A call on a collector. -/
inductive Op
  | recordRequest (modelId : String) (latencyMs : ℚ) (batchSize : ℤ) (costUsd : ℚ)
  | recordError (error : String)
  | clearOldData

/-- The collector after a call. -/
def step (c : MetricsCollector) : Op → MetricsCollector
  | .recordRequest modelId latencyMs batchSize costUsd =>
    c.recordRequest modelId latencyMs batchSize costUsd
  | .recordError error => c.recordError error
  | .clearOldData => c.clearOldData

/-- The call cuts nothing. -/
def CutsNothing (c : MetricsCollector) : Op → Prop
  | .clearOldData => c.latencies.length ≤ 10000
  | _ => True

/-! ## Histories -/

/-- The latency a call records. -/
def Op.latency? : Op → Option ℚ
  | .recordRequest _ latencyMs _ _ => some latencyMs
  | _ => none

/-- The call records an error. -/
def Op.isError : Op → Bool
  | .recordError _ => true
  | _ => false

/-- The latencies recorded in a history. -/
def recorded (tr : List Op) : List ℚ := tr.filterMap Op.latency?

/-- The summary counts every request by model, its average weighs every model by its requests, and
with no more errors than requests the error rate is a percentage. -/
def SelfConsistent (tr : List Op) (c : MetricsCollector) : Prop :=
  ∃ summary, c.getSummary = some summary ∧
    summary.totalRequests = summary.models.sumBy ModelSummary.requests ∧
    summary.avgLatencyMs * summary.totalRequests =
      summary.models.sumBy (fun m => m.avgLatencyMs * (m.requests : ℚ)) ∧
    (tr.countP Op.isError ≤ (recorded tr).length → 0 ≤ summary.errorRate ∧ summary.errorRate ≤ 100)

/-- What the accounts hold after a history. -/
structure Tallied (tr : List Op) (c : MetricsCollector) : Prop where
  used : ∀ e ∈ c.modelMetrics.entries, 0 < e.2.requests
  requests : c.modelMetrics.sumBy ModelMetrics.requests = (recorded tr).length
  latency : c.modelMetrics.sumBy ModelMetrics.totalLatency = (recorded tr).sum
  errors : c.errors.length = tr.countP Op.isError
  kept : Along step CutsNothing {} tr → c.latencies = recorded tr
  cut : ¬ Along step CutsNothing {} tr → c.latencies.length < (recorded tr).length

/-! ## Steps -/

theorem recorded_snoc (tr : List Op) (op : Op) :
    recorded (tr ++ [op]) = recorded tr ++ op.latency?.toList := by
  unfold recorded
  rw [List.filterMap_append]
  cases op <;> rfl

section Steps

variable {tr : List Op} {c : MetricsCollector}

theorem Tallied.length_le (h : Tallied tr c) : c.latencies.length ≤ (recorded tr).length := by
  by_cases halong : Along step CutsNothing {} tr
  · rw [h.kept halong]
  · exact (h.cut halong).le

theorem Tallied.recordRequest (h : Tallied tr c) (modelId : String) (latencyMs : ℚ)
    (batchSize : ℤ) (costUsd : ℚ) :
    Tallied (tr ++ [.recordRequest modelId latencyMs batchSize costUsd])
      (c.recordRequest modelId latencyMs batchSize costUsd) := by
  have hrec : recorded (tr ++ [.recordRequest modelId latencyMs batchSize costUsd]) =
      recorded tr ++ [latencyMs] := recorded_snoc tr _
  have halong : Along step CutsNothing {}
      (tr ++ [.recordRequest modelId latencyMs batchSize costUsd]) ↔
        Along step CutsNothing {} tr := along_snoc.trans (and_iff_left trivial)
  refine ⟨Dict.forall_value_set (Q := fun m : ModelMetrics => 0 < m.requests) h.used
    (Nat.succ_pos _), ?_, ?_, ?_, ?_, ?_⟩
  · rw [hrec, List.length_append, ← h.requests]
    exact Dict.sumBy_set_of_add (z := {}) rfl _ rfl
  · rw [hrec, List.sum_append, List.sum_singleton, ← h.latency]
    exact Dict.sumBy_set_of_add (z := {}) rfl _ rfl
  · rw [List.countP_append, ← h.errors]
    rfl
  · intro hkept
    rw [hrec, ← h.kept (halong.mp hkept)]
    rfl
  · intro hcut
    have hlt := h.cut (mt halong.mpr hcut)
    rw [hrec]
    simpa [MetricsCollector.recordRequest] using hlt

theorem Tallied.recordError (h : Tallied tr c) (error : String) :
    Tallied (tr ++ [.recordError error]) (c.recordError error) := by
  have hrec : recorded (tr ++ [.recordError error]) = recorded tr :=
    (recorded_snoc tr _).trans (List.append_nil _)
  have halong : Along step CutsNothing {} (tr ++ [.recordError error]) ↔
      Along step CutsNothing {} tr := along_snoc.trans (and_iff_left trivial)
  refine ⟨h.used, hrec ▸ h.requests, hrec ▸ h.latency, ?_, ?_, ?_⟩
  · rw [List.countP_append, ← h.errors]
    exact List.length_append
  · exact fun hkept => hrec ▸ h.kept (halong.mp hkept)
  · exact fun hcut => hrec ▸ h.cut (mt halong.mpr hcut)

theorem Tallied.clearOldData (h : Tallied tr c) (hc : c = run step {} tr) :
    Tallied (tr ++ [.clearOldData]) c.clearOldData := by
  have hrec : recorded (tr ++ [.clearOldData]) = recorded tr :=
    (recorded_snoc tr _).trans (List.append_nil _)
  have halong : Along step CutsNothing {} (tr ++ [.clearOldData]) ↔
      Along step CutsNothing {} tr ∧ c.latencies.length ≤ 10000 := by
    rw [along_snoc, hc]
    rfl
  have herrors : (tr ++ [Op.clearOldData]).countP Op.isError = tr.countP Op.isError :=
    List.countP_append
  unfold MetricsCollector.clearOldData
  split_ifs with hbig
  · have hlen := h.length_le
    refine ⟨h.used, hrec ▸ h.requests, hrec ▸ h.latency, herrors ▸ h.errors, ?_, ?_⟩
    · intro hkept
      have hsmall := (halong.mp hkept).2
      omega
    · intro _
      rw [hrec, List.length_drop]
      omega
  · have hsmall : c.latencies.length ≤ 10000 := not_lt.mp hbig
    refine ⟨h.used, hrec ▸ h.requests, hrec ▸ h.latency, herrors ▸ h.errors, ?_, ?_⟩
    · exact fun hkept => hrec ▸ h.kept (halong.mp hkept).1
    · exact fun hcut => hrec ▸ h.cut fun hkept => hcut (halong.mpr ⟨hkept, hsmall⟩)

end Steps

theorem tallied_run (tr : List Op) : Tallied tr (run step {} tr) := by
  induction tr using List.reverseRecOn with
  | nil =>
    exact ⟨fun e he => absurd he List.not_mem_nil, rfl, rfl, rfl, fun _ => rfl,
      fun h => absurd trivial h⟩
  | append_singleton tr op ih =>
    rw [run_snoc]
    cases op with
    | recordRequest modelId latencyMs batchSize costUsd =>
      exact ih.recordRequest modelId latencyMs batchSize costUsd
    | recordError error => exact ih.recordError error
    | clearOldData => exact ih.clearOldData rfl

/-! ## Summaries -/

/-- What a summary says of a collector. -/
theorem getSummary_of_ne_nil {c : MetricsCollector} (hne : c.latencies ≠ []) :
    ∃ summary, c.getSummary = some summary ∧ summary.totalRequests = c.latencies.length ∧
      summary.errorRate = c.errors.length / (c.latencies.length : ℚ) * 100 ∧
      summary.avgLatencyMs = c.latencies.sum / c.latencies.length ∧
      summary.models = (c.modelMetrics.filterValues fun m => 0 < m.requests).mapValues modelSummary :=
  ⟨_, if_neg hne, rfl, rfl, rfl, rfl⟩

theorem ne_nil_of_getSummary {c : MetricsCollector} {summary : MetricsSummary}
    (hs : c.getSummary = some summary) : c.latencies ≠ [] := by
  intro hnil
  unfold getSummary at hs
  rw [if_pos hnil] at hs
  cases hs

section Summary

variable {tr : List Op} {c : MetricsCollector} (h : Tallied tr c)
include h

/-- Every model of the collector is in the summary. -/
theorem Tallied.models_eq :
    (c.modelMetrics.filterValues fun m => 0 < m.requests).mapValues modelSummary =
      c.modelMetrics.mapValues modelSummary := by
  have hall : c.modelMetrics.filterValues (fun m => 0 < m.requests) = c.modelMetrics :=
    Dict.filterValues_of_forall fun e he => decide_eq_true (h.used e he)
  rw [hall]

theorem Tallied.sum_requests :
    (c.modelMetrics.mapValues modelSummary).sumBy ModelSummary.requests =
      (recorded tr).length := by
  rw [Dict.sumBy_mapValues, ← h.requests]
  rfl

/-- The requests of a model take its average each. -/
theorem Tallied.sum_latency :
    (c.modelMetrics.mapValues modelSummary).sumBy (fun m => m.avgLatencyMs * (m.requests : ℚ)) =
      (recorded tr).sum := by
  rw [Dict.sumBy_mapValues, ← h.latency]
  refine Dict.sumBy_congr fun e he => ?_
  have hpos : (e.2.requests : ℚ) ≠ 0 := by
    have hused := h.used e he
    exact_mod_cast hused.ne'
  exact div_mul_cancel₀ _ hpos

/-- A summary is consistent as long as nothing was cut. -/
theorem Tallied.selfConsistent (hrec : recorded tr ≠ []) (halong : Along step CutsNothing {} tr) :
    SelfConsistent tr c := by
  have hkept := h.kept halong
  have hne : c.latencies ≠ [] := hkept ▸ hrec
  have hpos : (0 : ℚ) < c.latencies.length := by
    exact_mod_cast List.length_pos_iff.mpr hne
  obtain ⟨summary, hs, htotal, hrate, havg, hmodels⟩ := getSummary_of_ne_nil hne
  refine ⟨summary, hs, ?_, ?_, fun hle => ?_⟩
  · rw [hmodels, h.models_eq, h.sum_requests, htotal, hkept]
  · rw [hmodels, h.models_eq, h.sum_latency, havg, htotal, ← hkept]
    exact div_mul_cancel₀ _ hpos.ne'
  · rw [← h.errors, ← hkept] at hle
    have hle' : (c.errors.length : ℚ) ≤ c.latencies.length := by exact_mod_cast hle
    have hone := (div_le_one hpos).mpr hle'
    have hzero : (0 : ℚ) ≤ c.errors.length / c.latencies.length :=
      div_nonneg (Nat.cast_nonneg _) hpos.le
    rw [hrate]
    constructor <;> linarith

/-- What was cut is still counted by model. -/
theorem Tallied.not_selfConsistent (hcut : ¬ Along step CutsNothing {} tr) :
    ¬ SelfConsistent tr c := by
  rintro ⟨summary, hs, htotal, -⟩
  obtain ⟨summary', hs', hlen, -, -, hmodels⟩ := getSummary_of_ne_nil (ne_nil_of_getSummary hs)
  obtain rfl : summary = summary' := Option.some.inj (hs.symm.trans hs')
  have hlt := h.cut hcut
  rw [hmodels, h.models_eq, h.sum_requests, hlen] at htotal
  omega

end Summary

/-- **Summaries.** After calls of which one at least records a request, the summary is consistent
exactly when none of them is a `clear_old_data` with more than 10000 latencies held. -/
theorem selfConsistent_iff {tr : List Op} (hrec : recorded tr ≠ []) :
    SelfConsistent tr (run step {} tr) ↔ Along step CutsNothing {} tr := by
  have h := tallied_run tr
  constructor
  · intro hcons
    by_contra hcut
    exact h.not_selfConsistent hcut hcons
  · exact h.selfConsistent hrec

/-- Two requests for two models, an error and a clean-up. -/
def fewRequests : List Op :=
  [.recordRequest "m1" 10 1 0, .recordError "boom", .recordRequest "m2" 30 1 0, .clearOldData]

theorem selfConsistent_fewRequests : SelfConsistent fewRequests (run step {} fewRequests) :=
  (@selfConsistent_iff fewRequests (List.cons_ne_nil _ _)).mpr
    ⟨trivial, trivial, trivial, show 2 ≤ 10000 by decide, trivial⟩

/-- Failing requests, each recorded with its error. -/
def failingRequests (n : ℕ) : List Op :=
  (List.replicate n [Op.recordRequest "m1" 10 1 0, .recordError "boom"]).flatten

theorem recorded_failingRequests (n : ℕ) :
    recorded (failingRequests n) = List.replicate n 10 := by
  unfold failingRequests recorded
  induction n with
  | zero => rfl
  | succ n ih => rw [List.replicate_succ, List.flatten_cons, List.filterMap_append, ih]; rfl

theorem countP_failingRequests (n : ℕ) : (failingRequests n).countP Op.isError = n := by
  unfold failingRequests
  induction n with
  | zero => rfl
  | succ n ih =>
    rw [List.replicate_succ, List.flatten_cons, List.countP_append, ih]
    exact Nat.add_comm 1 n

theorem cutsNothing_failingRequests (n : ℕ) : Along step CutsNothing {} (failingRequests n) := by
  refine along_iff_forall.mpr fun pre op hpre => ?_
  have hmem : op ∈ failingRequests n := hpre.subset (List.mem_append_right _ List.mem_cons_self)
  obtain ⟨ops, hops, hop⟩ := List.mem_flatten.mp hmem
  rw [List.eq_of_mem_replicate hops, List.mem_pair] at hop
  rcases hop with rfl | rfl <;> trivial

theorem length_clearOldData {c : MetricsCollector} (h : 10000 < c.latencies.length) :
    c.clearOldData.latencies.length = 5000 := by
  unfold clearOldData
  rw [if_pos h]
  dsimp only
  rw [List.length_drop]
  omega

/-- A clean-up after more than 10000 failing requests leaves 5000 of them in all, and each of them by
model and as an error. -/
theorem cleanUp_cuts {n : ℕ} (hn : 10000 < n) :
    ∃ summary, (run step {} (failingRequests n ++ [.clearOldData])).getSummary = some summary ∧
      summary.totalRequests = 5000 ∧ summary.models.sumBy ModelSummary.requests = n ∧
      summary.errorRate = n / 5000 * 100 ∧
      ¬ SelfConsistent (failingRequests n ++ [.clearOldData])
        (run step {} (failingRequests n ++ [.clearOldData])) := by
  have hbefore : (run step {} (failingRequests n)).latencies.length = n := by
    rw [(tallied_run _).kept (cutsNothing_failingRequests n), recorded_failingRequests,
      List.length_replicate]
  have h := tallied_run (failingRequests n ++ [.clearOldData])
  have hrec : (recorded (failingRequests n ++ [.clearOldData])).length = n := by
    rw [recorded_snoc, List.length_append, recorded_failingRequests, List.length_replicate]
    rfl
  have herrors := h.errors
  rw [List.countP_append, countP_failingRequests] at herrors
  have hlen : (run step {} (failingRequests n ++ [.clearOldData])).latencies.length = 5000 := by
    rw [run_snoc]
    exact length_clearOldData (hbefore.symm ▸ hn)
  have hne : (run step {} (failingRequests n ++ [.clearOldData])).latencies ≠ [] := by
    refine List.ne_nil_of_length_pos ?_
    omega
  obtain ⟨summary, hs, htotal, hrate, -, hmodels⟩ := getSummary_of_ne_nil hne
  refine ⟨summary, hs, htotal.trans hlen, ?_, ?_, h.not_selfConsistent fun halong => ?_⟩
  · rw [hmodels, h.models_eq, h.sum_requests, hrec]
  · rw [hrate, herrors, hlen]
    norm_num [Op.isError]
  · have hsmall : (run step {} (failingRequests n)).latencies.length ≤ 10000 :=
      (along_snoc.mp halong).2
    omega

/-- After 10001 failing requests and a clean-up the summary counts 5000 requests in all, 10001 of
the only model, and two errors for each request. -/
theorem cleanUp_splits :
    ∃ summary, (run step {} (failingRequests 10001 ++ [.clearOldData])).getSummary = some summary ∧
      summary.totalRequests = 5000 ∧ summary.models.sumBy ModelSummary.requests = 10001 ∧
      200 < summary.errorRate ∧
      ¬ SelfConsistent (failingRequests 10001 ++ [.clearOldData])
        (run step {} (failingRequests 10001 ++ [.clearOldData])) := by
  obtain ⟨summary, hs, htotal, hmodels, hrate, hcons⟩ := cleanUp_cuts (n := 10001) (by norm_num)
  refine ⟨summary, hs, htotal, hmodels, ?_, hcons⟩
  rw [hrate]
  norm_num

end MetricsCollector

end PyStreamAI
