import Mathlib.Algebra.BigOperators.Group.Multiset.Basic
import Mathlib.Data.List.MinMax
import PyStreamAI.EngineCancellation
import PyStreamAI.EngineDelivery

/-!
# The inference server

`InferenceServer.predict` runs `infer` and logs what it returned, before anything else can run.
Under every schedule the log is what the calls returned so far (`logged_run`), so the statistics
are those of the calls that returned (`stats_report`). The HTTP server turns every outcome into a
reply: with its model loaded first, each request is answered from that model (`predict_reply`).
-/

open Py Machine

namespace PyStreamAI

variable {ι Input Output World : Type}

/-- An entry of `request_log`. -/
structure LogEntry where
  requestId : String
  modelId : String
  latencyMs : ℚ
  batchSize : ℕ
  costUsd : ℚ
  timestamp : String

/-- The entry `predict` appends for a response. -/
def LogEntry.ofResponse (timestamp : String) (response : InferenceResponse Output) : LogEntry where
  requestId := response.requestId
  modelId := response.modelId
  latencyMs := response.latencyMs
  batchSize := response.batchSize
  costUsd := response.costUsd
  timestamp

/-- Server statistics. -/
structure ServerStats where
  requests : ℕ
  avgLatencyMs : ℚ
  minLatencyMs : ℚ
  maxLatencyMs : ℚ
  totalCostUsd : ℚ
  uptimeSeconds : ℚ
  deriving DecidableEq

/-- The answer of `health_check`. -/
structure HealthReport where
  status : String
  uptimeSeconds : ℚ
  requestsProcessed : ℕ
  deriving DecidableEq

/-- Inference server: the engine, the log and the time it was started. -/
structure InferenceServer (ι Input Output World : Type) where
  engine : Engine ι Input Output World
  requestLog : List LogEntry := []
  startTime : ℚ

namespace InferenceServer

def getStats (s : InferenceServer ι Input Output World) (now : ℚ) : ServerStats :=
  let latencies := s.requestLog.map LogEntry.latencyMs
  if s.requestLog = [] then
    { requests := 0, avgLatencyMs := 0, minLatencyMs := 0, maxLatencyMs := 0, totalCostUsd := 0,
      uptimeSeconds := now - s.startTime }
  else
    { requests := s.requestLog.length
      avgLatencyMs := latencies.sum / latencies.length
      minLatencyMs := latencies.min?.getD 0
      maxLatencyMs := latencies.max?.getD 0
      totalCostUsd := (s.requestLog.map LogEntry.costUsd).sum
      uptimeSeconds := now - s.startTime }

def healthCheck (s : InferenceServer ι Input Output World) (now : ℚ) : HealthReport where
  status := "healthy"
  uptimeSeconds := now - s.startTime
  requestsProcessed := s.requestLog.length

variable [DecidableEq ι] (requests : ι → InferenceRequest Input) (stamp : ℚ → String)

/-- What `infer` returns to `predict` in a step of the engine. -/
def returned (s : Engine ι Input Output World) :
    Action ι Input Output World → Option (InferenceResponse Output)
  | .run i =>
    if (s.calls i).pc.ended then none else ((s.advance requests i).calls i).pc.response
  | .tick _ => none
  | .load _ _ => none

/-- The server after an action: a call of `predict` whose `infer` returned logs its response.
`stamp now` is the date of the clock reading `now` as text. -/
def step (s : InferenceServer ι Input Output World) (a : Action ι Input Output World) :
    InferenceServer ι Input Output World :=
  { s with
    engine := s.engine.step requests a
    requestLog := s.requestLog ++
      ((returned requests s.engine a).map (LogEntry.ofResponse (stamp s.engine.now))).toList }

end InferenceServer

/-- The response of a call as a collection of at most one. -/
def Pc.responses (pc : Pc Input Output World) : Multiset (InferenceResponse Output) :=
  Multiset.ofList pc.response.toList

namespace Engine

variable [Fintype ι]

/-- The responses the calls returned so far. -/
def responses (s : Engine ι Input Output World) : Multiset (InferenceResponse Output) :=
  ∑ i, (s.calls i).pc.responses

variable [DecidableEq ι] {requests : ι → InferenceRequest Input}

omit [Fintype ι] in
/-- Only a call that pops a result gets a response, and it keeps it. -/
theorem response_of_moves {s s' : Engine ι Input Output World} {i : ι}
    {evs : List (Event ι Input Output World)} (hm : Moves requests s i s' evs) :
    (s.calls i).pc.response = none ∧ (s.calls i).pc.ended = false ∨
      s' = s ∧ (s.calls i).pc.ended = true := by
  cases hm with
  | stay outcome h => exact Or.inr ⟨rfl, by rw [h]; rfl⟩
  | start h | add h | poll h _ | pop h _ _ | ready h _ | sleep h _ | wake h | flushEmpty h _
  | flush h _ | publish _ _ h | missing _ _ _ _ _ h _ | found _ _ _ _ _ _ h _
  | predict _ _ _ _ _ h =>
    rw [h]
    exact Or.inl ⟨rfl, rfl⟩

/-- A step adds the response it returns to those returned so far. -/
theorem responses_step (s : Engine ι Input Output World) (a : Action ι Input Output World) :
    (s.step requests a).responses =
      s.responses + Multiset.ofList (InferenceServer.returned requests s a).toList := by
  cases a with
  | tick now => exact (add_zero _).symm
  | load modelId endpoint => exact (add_zero _).symm
  | run i =>
    have hm := advance_moves requests s i
    have hrest : ∑ j ∈ Finset.univ.erase i, ((s.advance requests i).calls j).pc.responses =
        ∑ j ∈ Finset.univ.erase i, (s.calls j).pc.responses :=
      Finset.sum_congr rfl fun j hj => by
        rw [calls_of_moves requests hm (Finset.ne_of_mem_erase hj)]
    show (s.advance requests i).responses = s.responses + Multiset.ofList (Option.toList
      (if (s.calls i).pc.ended then none else ((s.advance requests i).calls i).pc.response))
    rcases response_of_moves hm with ⟨hnone, hended⟩ | ⟨hstay, hended⟩
    · have hi : (s.calls i).pc.responses = 0 := by
        unfold Pc.responses
        rw [hnone]
        rfl
      rw [if_neg (by rw [hended]; decide)]
      unfold responses
      rw [← Finset.sum_erase_add _ _ (Finset.mem_univ i), hrest,
        ← Finset.sum_erase_add _ (fun j => (s.calls j).pc.responses) (Finset.mem_univ i), hi,
        add_zero]
      rfl
    · rw [if_pos hended, hstay]
      exact (add_zero _).symm

end Engine

namespace InferenceServer

variable [Fintype ι] [DecidableEq ι] (requests : ι → InferenceRequest Input) (stamp : ℚ → String)

/-- The log consists of the responses the calls returned, each with the date it was logged at. -/
def Logged (s : InferenceServer ι Input Output World) : Prop :=
  ∃ entries : List (String × InferenceResponse Output),
    s.requestLog = entries.map (fun p => LogEntry.ofResponse p.1 p.2) ∧
    Multiset.ofList (entries.map Prod.snd) = s.engine.responses

variable {requests stamp}

theorem Logged.step {s : InferenceServer ι Input Output World} (h : Logged s)
    (a : Action ι Input Output World) : Logged (s.step requests stamp a) := by
  obtain ⟨entries, hlog, hres⟩ := h
  refine ⟨entries ++ ((returned requests s.engine a).map (Prod.mk (stamp s.engine.now))).toList,
    ?_, ?_⟩
  · rw [List.map_append, ← hlog]
    show s.requestLog ++ _ = s.requestLog ++ _
    cases returned requests s.engine a <;> rfl
  · show _ = (s.engine.step requests a).responses
    rw [Engine.responses_step, ← hres, List.map_append, ← Multiset.coe_add]
    cases returned requests s.engine a <;> rfl

omit [Fintype ι] in
theorem engine_run (s : InferenceServer ι Input Output World)
    (tr : List (Action ι Input Output World)) :
    (run (step requests stamp) s tr).engine = run (Engine.step requests) s.engine tr := by
  induction tr using List.reverseRecOn with
  | nil => rfl
  | append_singleton tr a ih =>
    rw [run_snoc, run_snoc, ← ih]
    rfl

variable {maxBatchSize : ℤ} {maxWaitMs : ℚ}
  {modelCache : Dict String (Endpoint Input Output World)} {world : World} {now : ℚ}

/-- The server before any call starts. -/
def init (maxBatchSize : ℤ) (maxWaitMs : ℚ) (modelCache : Dict String (Endpoint Input Output World))
    (world : World) (now : ℚ) : InferenceServer ι Input Output World where
  engine := Engine.init maxBatchSize maxWaitMs modelCache world now
  requestLog := []
  startTime := now

theorem logged_run (tr : List (Action ι Input Output World)) :
    Logged (run (step requests stamp)
      (init maxBatchSize maxWaitMs modelCache world now : InferenceServer ι Input Output World)
      tr) := by
  refine run_invariant ⟨[], rfl, ?_⟩ (fun _ h a => h.step a) tr
  exact (Finset.sum_eq_zero fun i _ => rfl).symm

/-! ## Statistics -/

omit [DecidableEq ι] in
theorem exists_of_mem_responses {s : Engine ι Input Output World} {r : InferenceResponse Output}
    (h : r ∈ s.responses) : ∃ i, (s.calls i).pc.response = some r := by
  unfold Engine.responses at h
  obtain ⟨i, -, hi⟩ := Multiset.mem_sum.mp h
  exact ⟨i, Option.mem_toList.mp (Multiset.mem_coe.mp hi)⟩

omit [DecidableEq ι] in
/-- The number of responses is the number of calls that returned. -/
theorem card_responses (s : Engine ι Input Output World) :
    s.responses.card =
      (Finset.univ.filter fun i => (s.calls i).pc.response.isSome = true).card := by
  unfold Engine.responses
  rw [Multiset.card_sum, Finset.card_filter]
  refine Finset.sum_congr rfl fun i _ => ?_
  unfold Pc.responses
  cases (s.calls i).pc.response <;> rfl

theorem costUsd_deliver {request : InferenceRequest Input} {latencyMs : ℚ}
    {result : BatchResult Output} {r : InferenceResponse Output}
    (h : deliver request latencyMs result = .ok r) : r.costUsd = 0 := by
  unfold deliver at h
  split at h
  · cases h
  · obtain rfl := Except.ok.inj h
    rfl

/-- What the statistics report: the calls that returned, and nothing about those that raised. -/
structure Reports (s : InferenceServer ι Input Output World) (now : ℚ) : Prop where
  requests : (s.getStats now).requests =
    (Finset.univ.filter fun i => (s.engine.calls i).pc.response.isSome = true).card
  processed : (s.healthCheck now).requestsProcessed = (s.getStats now).requests
  totalCostUsd : (s.getStats now).totalCostUsd = 0
  empty : s.engine.responses = 0 → s.getStats now = ⟨0, 0, 0, 0, 0, now - s.startTime⟩
  avgLatencyMs : (s.getStats now).avgLatencyMs * (s.getStats now).requests =
    (s.engine.responses.map InferenceResponse.latencyMs).sum
  minLatencyMs : s.engine.responses ≠ 0 → IsLeast
    {x | ∃ r ∈ s.engine.responses, r.latencyMs = x} (s.getStats now).minLatencyMs
  maxLatencyMs : s.engine.responses ≠ 0 → IsGreatest
    {x | ∃ r ∈ s.engine.responses, r.latencyMs = x} (s.getStats now).maxLatencyMs

theorem isLeast_min? {xs : List ℚ} (h : xs ≠ []) : IsLeast {x | x ∈ xs} (xs.min?.getD 0) := by
  cases hmin : xs.min? with
  | none => exact absurd (List.min?_eq_none_iff.mp hmin) h
  | some a =>
    rw [List.min?_eq_some_iff] at hmin
    exact ⟨hmin.1, fun b hb => hmin.2 b hb⟩

theorem isGreatest_max? {xs : List ℚ} (h : xs ≠ []) :
    IsGreatest {x | x ∈ xs} (xs.max?.getD 0) := by
  cases hmax : xs.max? with
  | none => exact absurd (List.max?_eq_none_iff.mp hmax) h
  | some a =>
    rw [List.max?_eq_some_iff] at hmax
    exact ⟨hmax.1, fun b hb => hmax.2 b hb⟩

omit [DecidableEq ι] in
theorem Logged.latencies {s : InferenceServer ι Input Output World} (h : Logged s) :
    Multiset.ofList (s.requestLog.map LogEntry.latencyMs) =
      s.engine.responses.map InferenceResponse.latencyMs := by
  obtain ⟨entries, hlog, hres⟩ := h
  rw [hlog, ← hres, Multiset.map_coe, List.map_map, List.map_map]
  rfl

omit [DecidableEq ι] in
theorem Logged.length {s : InferenceServer ι Input Output World} (h : Logged s) :
    s.requestLog.length = s.engine.responses.card := by
  have hcard := congrArg Multiset.card h.latencies
  simpa using hcard

omit [DecidableEq ι] in
/-- The statistics of a server whose log is what its calls returned, all at no cost. -/
theorem Logged.reports {s : InferenceServer ι Input Output World} (h : Logged s)
    (hcost : ∀ r ∈ s.engine.responses, r.costUsd = 0) (now : ℚ) : Reports s now := by
  have hmem : ∀ x, x ∈ s.requestLog.map LogEntry.latencyMs ↔
      ∃ r ∈ s.engine.responses, r.latencyMs = x := by
    intro x
    rw [← Multiset.mem_coe, h.latencies, Multiset.mem_map]
  have hzero : (s.requestLog.map LogEntry.costUsd).sum = 0 := by
    obtain ⟨entries, hlog, hres⟩ := h
    refine List.sum_eq_zero fun x hx => ?_
    rw [hlog, List.map_map] at hx
    obtain ⟨p, hp, rfl⟩ := List.mem_map.mp hx
    exact hcost p.2 (hres ▸ Multiset.mem_coe.mpr (List.mem_map_of_mem hp))
  have hempty : s.requestLog = [] ↔ s.engine.responses = 0 := by
    rw [← List.length_eq_zero_iff, h.length, Multiset.card_eq_zero]
  by_cases hlog : s.requestLog = []
  · have hstats : s.getStats now = ⟨0, 0, 0, 0, 0, now - s.startTime⟩ := if_pos hlog
    have hres := hempty.mp hlog
    refine ⟨?_, ?_, ?_, fun _ => hstats, ?_, fun hne => absurd hres hne,
      fun hne => absurd hres hne⟩
    · rw [hstats, ← card_responses, hres]
      rfl
    · rw [hstats]
      exact List.length_eq_zero_iff.mpr hlog
    · rw [hstats]
    · rw [hstats, hres]
      simp
  · have hstats : s.getStats now = _ := if_neg hlog
    have hpos : (s.requestLog.length : ℚ) ≠ 0 := by
      simpa using hlog
    have hlatencies : s.requestLog.map LogEntry.latencyMs ≠ [] := by
      simpa using hlog
    refine ⟨?_, ?_, ?_, fun hres => absurd (hempty.mpr hres) hlog, ?_, fun _ => ?_, fun _ => ?_⟩
    · rw [hstats, ← card_responses]
      exact h.length
    · rw [hstats]
      rfl
    · rw [hstats]
      exact hzero
    · rw [hstats, ← h.latencies, Multiset.sum_coe]
      show _ / ((s.requestLog.map LogEntry.latencyMs).length : ℚ) * _ = _
      rw [List.length_map]
      exact div_mul_cancel₀ _ hpos
    · have hleast := isLeast_min? hlatencies
      simp only [hmem] at hleast
      rw [hstats]
      exact hleast
    · have hgreatest := isGreatest_max? hlatencies
      simp only [hmem] at hgreatest
      rw [hstats]
      exact hgreatest

/-- Under every schedule the statistics and the health report are those of the calls that
returned: a call that raised is neither counted nor averaged, and nothing is ever charged. -/
theorem stats_report (tr : List (Action ι Input Output World)) (later : ℚ) :
    Reports (run (step requests stamp)
      (init maxBatchSize maxWaitMs modelCache world now : InferenceServer ι Input Output World) tr)
      later := by
  refine (logged_run tr).reports (fun r hr => ?_) later
  obtain ⟨i, hi⟩ := exists_of_mem_responses hr
  rw [engine_run] at hi
  have hrun : Engine.Sourced requests _ _ :=
    Engine.sourced_run maxBatchSize maxWaitMs modelCache world now tr
  have hs := hrun.pcs i
  cases hpc : ((run (Engine.step requests) (init maxBatchSize maxWaitMs modelCache world now :
      InferenceServer ι Input Output World).engine tr).calls i).pc with
  | finished outcome =>
    rw [hpc] at hi
    rw [show ((run (Engine.step requests) (Engine.init maxBatchSize maxWaitMs modelCache world now)
      tr).calls i).pc = _ from hpc] at hs
    obtain ⟨latencyMs, result, k, -, -, rfl⟩ := hs
    cases hdel : deliver (requests i) latencyMs result with
    | error e => rw [hdel] at hi; cases hi
    | ok r' =>
      rw [hdel] at hi
      obtain rfl : r' = r := Option.some.inj hi
      exact costUsd_deliver hdel
  | _ => rw [hpc] at hi; cases hi

end InferenceServer

/-! ## The HTTP server -/

/-- Prediction response. -/
structure PredictResponse (Output : Type) where
  requestId : String
  modelId : String
  output : Option Output
  latencyMs : ℚ
  batchSize : ℕ
  costUsd : ℚ

/-- `PredictResponse(**response)`: the other keys of the dictionary are ignored. -/
def PredictResponse.ofResponse (response : InferenceResponse Output) : PredictResponse Output where
  requestId := response.requestId
  modelId := response.modelId
  output := response.output
  latencyMs := response.latencyMs
  batchSize := response.batchSize
  costUsd := response.costUsd

/-- The reply to `POST /predict`. -/
inductive HttpReply (Output : Type)
  | ok (response : PredictResponse Output)
  | error (statusCode : ℕ) (detail : String)

/-- What `/predict` makes of the end of `InferenceServer.predict`; `modelDumpJson` is the JSON text
of a response or the exception that making it raises. -/
def APIServer.predict (modelDumpJson : PredictResponse Output → Except Error String)
    (outcome : Except Error (InferenceResponse Output)) : HttpReply Output :=
  match outcome with
  | .error e => .error 500 e.text
  | .ok response =>
    match modelDumpJson (.ofResponse response) with
    | .error e => .error 500 e.text
    | .ok _ => .ok (.ofResponse response)

namespace APIServer

variable [Fintype ι] [DecidableEq ι] {requests : ι → InferenceRequest Input} {modelId : String}
  {model : Endpoint Input Output World}
  {modelDumpJson : PredictResponse Output → Except Error String}
  {maxBatchSize : ℤ} {maxWaitMs : ℚ} {world : World} {now : ℚ}

/-- The cache of a server that has loaded its model. -/
def loaded (modelId : String) (model : Endpoint Input Output World) :
    Dict String (Endpoint Input Output World) := (∅ : Dict _ _).set modelId model

omit [Fintype ι] in
/-- Models are replaced, never unloaded. -/
theorem contains_modelCache (tr : List (Action ι Input Output World)) :
    (run (Engine.step requests) (Engine.init maxBatchSize maxWaitMs (loaded modelId model) world
      now) tr).modelCache.contains modelId = true := by
  refine run_invariant (I := fun s : Engine ι Input Output World =>
    s.modelCache.contains modelId = true) ?_ (fun s h a => ?_) tr
  · simp [Engine.init, loaded, Dict.contains, Dict.get?_set]
  · cases a with
    | tick now => exact h
    | load name endpoint =>
      show (s.modelCache.set name endpoint).contains modelId = true
      unfold Dict.contains
      rw [Dict.get?_set]
      split_ifs
      · rfl
      · exact h
    | run i =>
      have hm := Engine.advance_moves requests s i
      show (s.advance requests i).modelCache.contains modelId = true
      generalize s.advance requests i = s', s.observe i = evs at hm
      cases hm <;> exact h

/-- What the reply to a request is: the output of the model for its input, or the text of what the
model raised, or of what serialising the output raised. -/
structure Answers (modelDumpJson : PredictResponse Output → Except Error String)
    (request : InferenceRequest Input) (endpoint : Endpoint Input Output World) (world : World)
    (reply : HttpReply Output) : Prop where
  raised : ∀ e, (endpoint.predict world request.inputData).1 = .error e →
    reply = .error 500 (s!"Inference failed for model {pyRepr request.modelId}: " ++
      (e.typeName ++ ": " ++ e.text))
  predicted : ∀ output, (endpoint.predict world request.inputData).1 = .ok output →
    ∃ latencyMs batchSize,
      let response : PredictResponse Output :=
        ⟨request.requestId, request.modelId, some output, latencyMs, batchSize, 0⟩
      reply = match modelDumpJson response with
        | .error e => .error 500 e.text
        | .ok _ => .ok response

omit [Fintype ι] in
/-- With distinct request ids and the model loaded at the start, the reply to every request that
ends comes from the model cached at some moment of the run: no request is told that there is no
model, whatever is loaded meanwhile. -/
theorem predict_reply (hinj : Function.Injective fun i => (requests i).requestId)
    (hmodel : ∀ i, (requests i).modelId = modelId) (tr : List (Action ι Input Output World)) (i : ι)
    (outcome : Except Error (InferenceResponse Output))
    (hi : ((run (Engine.step requests) (Engine.init maxBatchSize maxWaitMs (loaded modelId model)
      world now) tr).calls i).pc = .finished outcome) :
    ∃ endpoint found pre j batch, pre <+: tr ∧
      (run (Engine.step requests) (Engine.init maxBatchSize maxWaitMs (loaded modelId model) world
        now) pre).modelCache.get? modelId = some endpoint ∧
      .predicted j batch (requests i) endpoint found ∈ Engine.events requests
        (Engine.init maxBatchSize maxWaitMs (loaded modelId model) world now) tr ∧
      Answers modelDumpJson (requests i) endpoint found (predict modelDumpJson outcome) := by
  have hrun : Engine.Sourced requests _ _ :=
    Engine.sourced_run maxBatchSize maxWaitMs (loaded modelId model) world now tr
  have hs := hrun.pcs i
  rw [hi] at hs
  obtain ⟨latencyMs, result, k, hk, ⟨j, batch, -, -, hsource⟩, rfl⟩ := hs
  obtain rfl : k = i := hinj hk
  rcases hsource with ⟨hlooked, -⟩ | ⟨endpoint, found, hlooked, hpredicted, rfl⟩
  · -- a lookup without a model would contradict that models stay loaded
    obtain ⟨pre, -, hcache⟩ := Engine.looked_cache hlooked
    have hloaded : (run (Engine.step requests) (Engine.init maxBatchSize maxWaitMs
      (loaded modelId model) world now) pre).modelCache.contains modelId = true :=
      contains_modelCache pre
    rw [hmodel k] at hcache
    unfold Dict.contains at hloaded
    rw [hcache] at hloaded
    cases hloaded
  · obtain ⟨pre, hpre, hcache⟩ := Engine.looked_cache hlooked
    refine ⟨endpoint, found, pre, j, batch, hpre, hmodel k ▸ hcache, hpredicted, ?_, ?_⟩
    · intro e he
      rw [he]
      rfl
    · intro output he
      rw [he]
      exact ⟨latencyMs, batch.length, rfl⟩

/-- A model that halves even inputs. -/
def halve : Endpoint ℕ ℕ Unit where
  modelId := "m"
  predict world n :=
    (if n % 2 = 1 then .error ⟨"ValueError", "odd"⟩ else .ok (n / 2), world)

/-- Two requests to that model in one batch; the second one, which ran no batch itself, is answered
from the model. -/
theorem sharedBatch_reply :
    let s₀ : Engine Bool ℕ ℕ Unit := Engine.init 32 100 (loaded "m" halve) () 1
    let tr := Engine.sharedBatch.tail
    let dump : PredictResponse ℕ → Except Error String := fun _ => .ok "{}"
    ∃ outcome, ((run (Engine.step Engine.twoIds) s₀ tr).calls true).pc = .finished outcome ∧
      ∃ endpoint found pre j batch, pre <+: tr ∧
        (run (Engine.step Engine.twoIds) s₀ pre).modelCache.get? "m" = some endpoint ∧
        .predicted j batch (Engine.twoIds true) endpoint found ∈
          Engine.events Engine.twoIds s₀ tr ∧
        Answers dump (Engine.twoIds true) endpoint found (predict dump outcome) := by
  intro s₀ tr dump
  have hended : ((run (Engine.step Engine.twoIds) s₀ tr).calls true).pc.ended = true := by
    decide +kernel
  cases hpc : ((run (Engine.step Engine.twoIds) s₀ tr).calls true).pc with
  | finished outcome =>
    exact ⟨outcome, rfl, predict_reply Engine.twoIds_injective (by rintro (_ | _) <;> rfl) tr true
      outcome hpc⟩
  | _ => rw [hpc] at hended; cases hended

end APIServer

end PyStreamAI
