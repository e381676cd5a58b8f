import Mathlib.Algebra.Order.Field.Rat
import PyStreamAI.Machine
import PyStreamAI.Py.Dict
import PyStreamAI.Py.Trace

/-!
# Observability backends

A backend hands one metric to a client library in several calls, each of which may raise, and catches
what is raised. So each metric leaves some of its recordings, from the first on. The gauge of speedups
is last: in Prometheus it has the speedup of the last metric of the model that got that far
(`prometheus_run`). OpenTelemetry reads an attribute that a metric does not have, so its gauge is 1
whatever the metrics say (`openTelemetry_run`).
-/

open Py Machine

namespace PyStreamAI

/-- Inference metric - plug into any observability backend. -/
structure InferenceMetric where
  requestId : String
  modelId : String
  latencyMs : ℚ
  tokens : ℤ
  costUsd : ℚ
  optimizationType : String
  batchSize : ℤ := 1
  gpuMemoryMb : Option ℚ := none
  speedupVsBaseline : ℚ := 1
  deriving DecidableEq

/-- `getattr(m, name, default)` for the attributes that are numbers. -/
def InferenceMetric.getattr (m : InferenceMetric) (name : String) (default : ℚ) : ℚ :=
  if name = "latency_ms" then m.latencyMs
  else if name = "tokens" then m.tokens
  else if name = "cost_usd" then m.costUsd
  else if name = "batch_size" then m.batchSize
  else if name = "speedup_vs_baseline" then m.speedupVsBaseline
  else default

/-- A call of a client library. -/
inductive SdkCall
  | createHistogram (name : String)
  | createCounter (name : String)
  | record (name : String) (labels : List (String × String)) (value : ℚ)
  deriving DecidableEq

/-- How a client library answers. -/
abbrev Sdk := List (Exchange SdkCall) → SdkCall → Except Exn Unit

/-! ## Prometheus -/

namespace PrometheusBackend

/-- What is recorded of a metric, in order. -/
def recordings (metric : InferenceMetric) : List SdkCall :=
  [.record "pystreamai_inference_latency_ms"
      [("model_id", metric.modelId), ("optimization_type", metric.optimizationType)]
      metric.latencyMs,
    .record "pystreamai_cost_usd_total" [("model_id", metric.modelId)] metric.costUsd,
    .record "pystreamai_batch_size" [("model_id", metric.modelId)] metric.batchSize,
    .record "pystreamai_speedup_vs_baseline" [("model_id", metric.modelId)]
      metric.speedupVsBaseline]

/-- Log metric to Prometheus. -/
def logMetric (sdk : Sdk) (metric : InferenceMetric) : Act (List (Exchange SdkCall)) Unit :=
  Act.orElse (Act.forEach (Act.tell sdk) (recordings metric)) ()

/-- The trace after a metric was logged, whether or not that raised. -/
def step (sdk : Sdk) (trace : List (Exchange SdkCall)) (metric : InferenceMetric) :
    List (Exchange SdkCall) := (logMetric sdk metric trace).2

/-- What some calls set the gauge of a model to. -/
def gaugeValues (modelId : String) (calls : List SdkCall) : List ℚ :=
  calls.filterMap fun
    | .record name labels value =>
      if name = "pystreamai_speedup_vs_baseline" ∧ labels = [("model_id", modelId)] then some value
      else none
    | .createHistogram _ => none
    | .createCounter _ => none

/-- The value of the gauge: the one it was set to last. -/
def gauge (trace : List (Exchange SdkCall)) (modelId : String) : Option ℚ :=
  (gaugeValues modelId (Exchange.done trace)).getLast?

end PrometheusBackend

/-! ## OpenTelemetry -/

/-- OpenTelemetry backend: `meter` is there if the library is. -/
structure OpenTelemetryBackend where
  meter : Bool
  metricsByModel : Dict String InferenceMetric := ∅
  trace : List (Exchange SdkCall) := []

namespace OpenTelemetryBackend

/-- What is recorded of a metric, in order. -/
def recordings (metric : InferenceMetric) : List SdkCall :=
  [.createHistogram "inference_latency_ms",
    .record "inference_latency_ms"
      [("model", metric.modelId), ("optimization", metric.optimizationType)] metric.latencyMs,
    .createCounter "inference_cost_usd",
    .record "inference_cost_usd" [("model", metric.modelId)] metric.costUsd]

/-- Calls of the library. -/
def onTrace {α : Type} (x : Act (List (Exchange SdkCall)) α) : Act OpenTelemetryBackend α := fun s =>
  let (r, trace) := x s.trace
  (r, { s with trace })

/-- `self._metrics_by_model[metric.model_id] = metric`. -/
def remember (metric : InferenceMetric) : Act OpenTelemetryBackend Unit := fun s =>
  (.ok (), { s with metricsByModel := s.metricsByModel.set metric.modelId metric })

/-- Log metric via OpenTelemetry. -/
def logMetric (sdk : Sdk) (metric : InferenceMetric) : Act OpenTelemetryBackend Unit := fun s =>
  if s.meter then
    Act.orElse (do
      onTrace (Act.forEach (Act.tell sdk) (recordings metric))
      remember metric) () s
  else (.ok (), s)

/-- The backend after a metric was logged, whether or not that raised. -/
def step (sdk : Sdk) (s : OpenTelemetryBackend) (metric : InferenceMetric) :
    OpenTelemetryBackend := (logMetric sdk metric s).2

/-- What the gauge of speedups observes: a value for each model. -/
def observeSpeedup (s : OpenTelemetryBackend) : List (ℚ × String) :=
  s.metricsByModel.entries.map fun p => (p.2.getattr "speedup" 1, p.1)

end OpenTelemetryBackend

/-! ## What the metrics leave -/

open Exchange

/-- Each metric left a block of calls in the trace. -/
structure Logged (recordings : InferenceMetric → List SdkCall) (metrics : List InferenceMetric)
    (trace : List (Exchange SdkCall)) (blocks : List (InferenceMetric × List (Exchange SdkCall))) :
    Prop where
  metrics : blocks.map Prod.fst = metrics
  trace : (blocks.map Prod.snd).flatten = trace
  block : ∀ b ∈ blocks, Block (recordings b.1) b.2

/-- The metrics of which everything was recorded. -/
def delivered (recordings : InferenceMetric → List SdkCall)
    (blocks : List (InferenceMetric × List (Exchange SdkCall))) : List InferenceMetric :=
  (blocks.filter fun b => Complete (recordings b.1) b.2).map Prod.fst

/-- The last metric of a model. -/
def lastOf (modelId : String) (metrics : List InferenceMetric) : Option InferenceMetric :=
  (metrics.filter fun m => m.modelId = modelId).getLast?

section Logged

variable {recordings : InferenceMetric → List SdkCall} {metrics : List InferenceMetric}
  {trace : List (Exchange SdkCall)} {blocks : List (InferenceMetric × List (Exchange SdkCall))}

theorem logged_nil : Logged recordings [] [] [] where
  metrics := rfl
  trace := rfl
  block _ h := by cases h

theorem Logged.snoc (h : Logged recordings metrics trace blocks) {metric : InferenceMetric}
    {block : List (Exchange SdkCall)} (hblock : Block (recordings metric) block) :
    Logged recordings (metrics ++ [metric]) (trace ++ block) (blocks ++ [(metric, block)]) where
  metrics := by rw [List.map_append, h.metrics, List.map_singleton]
  trace := by simp [h.trace]
  block := List.forall_mem_append.mpr ⟨h.block, List.forall_mem_singleton.mpr hblock⟩

theorem delivered_snoc (metric : InferenceMetric) (block : List (Exchange SdkCall)) :
    delivered recordings (blocks ++ [(metric, block)]) =
      delivered recordings blocks ++
        if Complete (recordings metric) block then [metric] else [] := by
  unfold delivered
  rw [List.filter_append, List.map_append, List.filter_singleton]
  split_ifs <;> simp_all

theorem lastOf_snoc (modelId : String) (metrics : List InferenceMetric) (metric : InferenceMetric) :
    lastOf modelId (metrics ++ [metric]) =
      if metric.modelId = modelId then some metric else lastOf modelId metrics := by
  unfold lastOf
  rw [List.filter_append]
  split_ifs with h <;> simp [h]

theorem exists_lastOf {modelId : String} {metrics : List InferenceMetric} :
    (∃ metric, lastOf modelId metrics = some metric) ↔
      ∃ metric ∈ metrics, metric.modelId = modelId := by
  unfold lastOf
  rw [← Option.isSome_iff_exists, List.getLast?_isSome, ← List.length_pos_iff_ne_nil,
    List.length_filter_pos_iff]
  simp

end Logged

namespace PrometheusBackend

/-- Only the last recording of a metric sets a gauge. -/
theorem gaugeValues_recordings (modelId : String) (metric : InferenceMetric) :
    gaugeValues modelId (recordings metric).dropLast = [] ∧
      gaugeValues modelId (recordings metric) =
        if metric.modelId = modelId then [metric.speedupVsBaseline] else [] := by
  constructor
  · simp [gaugeValues, recordings]
  · unfold gaugeValues recordings
    split_ifs with h <;> simp [h]

theorem gaugeValues_append (modelId : String) (calls calls' : List SdkCall) :
    gaugeValues modelId (calls ++ calls') = gaugeValues modelId calls ++ gaugeValues modelId calls' :=
  List.filterMap_append

/-- A block sets the gauge when it is complete. -/
theorem gaugeValues_block {metric : InferenceMetric} {block : List (Exchange SdkCall)}
    (h : Block (recordings metric) block) (modelId : String) :
    gaugeValues modelId (done block) =
      if Complete (recordings metric) block ∧ metric.modelId = modelId
      then [metric.speedupVsBaseline] else [] := by
  obtain ⟨hinit, hall⟩ := gaugeValues_recordings modelId metric
  rcases h.done_cases with hcomplete | ⟨hcomplete, rest, hprefix⟩
  · rw [show done block = recordings metric from hcomplete, hall]
    simp [hcomplete]
  · rw [← hprefix, gaugeValues_append] at hinit
    rw [if_neg fun h => hcomplete h.1]
    exact (List.append_eq_nil_iff.mp hinit).1

/-- **Prometheus.** In every history, however the library answers: each metric leaves its recordings
up to the first that raised. The gauge of a model is the speedup of its last metric that was recorded
to the end. -/
theorem prometheus_run (sdk : Sdk) (metrics : List InferenceMetric) :
    ∃ blocks, Logged recordings metrics (run (step sdk) [] metrics) blocks ∧
      ∀ modelId, gauge (run (step sdk) [] metrics) modelId =
        (lastOf modelId (delivered recordings blocks)).map InferenceMetric.speedupVsBaseline := by
  induction metrics using List.reverseRecOn with
  | nil => exact ⟨[], logged_nil, fun modelId => rfl⟩
  | append_singleton metrics metric ih =>
    obtain ⟨blocks, hlogged, hgauge⟩ := ih
    obtain ⟨block, hblock, htrace, -⟩ :=
      Act.forEach_tell sdk (recordings metric) (run (step sdk) [] metrics)
    have hstep : run (step sdk) [] (metrics ++ [metric]) = run (step sdk) [] metrics ++ block := by
      rw [run_snoc, step, logMetric, Act.snd_orElse, htrace]
    rw [hstep]
    refine ⟨blocks ++ [(metric, block)], hlogged.snoc hblock, fun modelId => ?_⟩
    have hold := hgauge modelId
    unfold gauge at hold ⊢
    rw [done_append, gaugeValues_append, gaugeValues_block hblock, delivered_snoc]
    by_cases hcomplete : Complete (recordings metric) block
    · rw [if_pos hcomplete, lastOf_snoc]
      by_cases hmodel : metric.modelId = modelId
      · rw [if_pos ⟨hcomplete, hmodel⟩, if_pos hmodel, List.getLast?_concat]
        rfl
      · rw [if_neg fun h => hmodel h.2, if_neg hmodel, List.append_nil, hold]
    · rw [if_neg fun h => hcomplete h.1, if_neg hcomplete, List.append_nil, List.append_nil, hold]

end PrometheusBackend

namespace OpenTelemetryBackend

/-- No metric has the attribute the gauge reads. -/
theorem getattr_speedup (m : InferenceMetric) : m.getattr "speedup" 1 = 1 := by
  simp [InferenceMetric.getattr]

theorem onTrace_eq {α : Type} {x : Act (List (Exchange SdkCall)) α} {s : OpenTelemetryBackend}
    {r : Except Exn α} {trace : List (Exchange SdkCall)} (hr : (x s.trace).1 = r)
    (htrace : (x s.trace).2 = trace) : onTrace x s = (r, { s with trace }) := by
  unfold onTrace
  rw [← hr, ← htrace]

/-- What logging a metric does to a backend with a meter. -/
theorem logMetric_cases (sdk : Sdk) (metric : InferenceMetric) {s : OpenTelemetryBackend}
    (h : s.meter = true) :
    ∃ block, Block (recordings metric) block ∧ step sdk s metric =
      { s with
        trace := s.trace ++ block
        metricsByModel := if Complete (recordings metric) block
          then s.metricsByModel.set metric.modelId metric else s.metricsByModel } := by
  obtain ⟨block, hblock, htrace, hend⟩ := Act.forEach_tell sdk (recordings metric) s.trace
  refine ⟨block, hblock, ?_⟩
  unfold step logMetric
  rw [if_pos h, Act.snd_orElse]
  rcases hend with ⟨hok, hcomplete⟩ | ⟨⟨e, herror⟩, hcomplete⟩
  · rw [Act.bind_of_ok (onTrace_eq hok htrace), if_pos hcomplete]
    rfl
  · rw [Act.bind_of_error (onTrace_eq herror htrace), if_neg hcomplete]

/-- What a history of metrics leaves in a backend with a meter. -/
theorem remembered_run (sdk : Sdk) (metrics : List InferenceMetric) :
    let s := run (step sdk) { meter := true } metrics
    ∃ blocks, s.meter = true ∧ Logged recordings metrics s.trace blocks ∧
      ∀ modelId, s.metricsByModel.get? modelId = lastOf modelId (delivered recordings blocks) := by
  induction metrics using List.reverseRecOn with
  | nil => exact ⟨[], rfl, logged_nil, fun modelId => rfl⟩
  | append_singleton metrics metric ih =>
    obtain ⟨blocks, hmeter, hlogged, hlast⟩ := ih
    obtain ⟨block, hblock, hstep⟩ := logMetric_cases sdk metric hmeter
    rw [run_snoc, hstep]
    refine ⟨blocks ++ [(metric, block)], hmeter, hlogged.snoc hblock, fun modelId => ?_⟩
    rw [delivered_snoc]
    dsimp only
    by_cases hcomplete : Complete (recordings metric) block
    · rw [if_pos hcomplete, if_pos hcomplete, lastOf_snoc, Dict.get?_set, hlast modelId]
      simp only [eq_comm]
    · rw [if_neg hcomplete, if_neg hcomplete, List.append_nil, hlast modelId]

theorem mem_observeSpeedup {s : OpenTelemetryBackend} {value : ℚ} {modelId : String} :
    (value, modelId) ∈ s.observeSpeedup ↔
      value = 1 ∧ ∃ metric, s.metricsByModel.get? modelId = some metric := by
  unfold observeSpeedup
  simp only [List.mem_map, getattr_speedup, Prod.mk.injEq, Prod.exists, Dict.get?_eq_some]
  constructor
  · rintro ⟨k, metric, hmem, rfl, rfl⟩
    exact ⟨rfl, metric, hmem⟩
  · rintro ⟨rfl, metric, hmem⟩
    exact ⟨modelId, metric, hmem, rfl, rfl⟩

/-- **OpenTelemetry.** Without the library nothing is recorded. With it each metric leaves its
recordings up to the first that raised, however the library answers, and the gauge observes 1 for each
model of which a metric was recorded to the end, once, whatever the speedups were. -/
theorem openTelemetry_run (sdk : Sdk) (metrics : List InferenceMetric) (meter : Bool) :
    let s := run (step sdk) { meter } metrics
    if meter then
      ∃ blocks, Logged recordings metrics s.trace blocks ∧
        (s.observeSpeedup.map Prod.snd).Nodup ∧
        ∀ value modelId, (value, modelId) ∈ s.observeSpeedup ↔
          value = 1 ∧ ∃ metric ∈ delivered recordings blocks, metric.modelId = modelId
    else s.trace = [] ∧ s.observeSpeedup = [] := by
  intro s
  cases meter with
  | false =>
    have hsame : s = { meter := false } := by
      show run (step sdk) { meter := false } metrics = _
      induction metrics using List.reverseRecOn with
      | nil => rfl
      | append_singleton metrics metric ih =>
        rw [run_snoc, ih]
        rfl
    rw [if_neg Bool.false_ne_true, hsame]
    exact ⟨rfl, rfl⟩
  | true =>
    obtain ⟨blocks, -, hlogged, hlast⟩ := remembered_run sdk metrics
    rw [if_pos rfl]
    refine ⟨blocks, hlogged, ?_, fun value modelId => ?_⟩
    · unfold observeSpeedup
      rw [List.map_map]
      exact s.metricsByModel.nodup
    · rw [← exists_lastOf, ← hlast modelId, mem_observeSpeedup]

end OpenTelemetryBackend

end PyStreamAI
