import Mathlib.Logic.Function.Basic
import PyStreamAI.BatchQueue
import PyStreamAI.Machine
import PyStreamAI.Py.Basic
import PyStreamAI.Py.Dict

/-!
# Concurrent inference

The engine runs a pool of `infer` calls, one per index of `ι`, as tasks of one event loop. A call
is at one of the awaits of its code (`Pc`); a step runs it to the next one. Steps are at least as
fine as the event loop's, so every schedule is a sequence of `Action`s, among which are also
clock ticks and models being loaded. `Moves` lists what a step of a call can do, `advance_moves` is
its only connection to the code.
-/

open Py

namespace PyStreamAI

/-! ## Requests, endpoints and results -/

/-- Single inference request. -/
structure InferenceRequest (Input : Type) where
  requestId : String
  modelId : String
  inputData : Input

/-- A cached endpoint. `predict` may read and change state it shares with other endpoints, all of
which is in `World`, and returns the `"output"` of its result or raises an `Exception`. -/
structure Endpoint (Input Output World : Type) where
  modelId : String
  predict : World → Input → Except Error Output × World

/-- A published result: `(output, error, batch_size)`. -/
structure BatchResult (Output : Type) where
  output : Option Output
  error : Option String
  batchSize : ℕ

/-- Inference response. -/
structure InferenceResponse (Output : Type) where
  requestId : String
  modelId : String
  output : Option Output
  latencyMs : ℚ
  batchSize : ℕ
  gpuId : Option ℤ
  costUsd : ℚ

variable {Input Output World : Type}

/-- The result of a request whose model is not loaded. -/
def missingResult (modelId : String) (batchSize : ℕ) : BatchResult Output :=
  ⟨none, some (s!"no model loaded for model_id={pyRepr modelId} -- " ++
    "call InferenceServer.load_model(model_id, model) first"), batchSize⟩

/-- The result of a request whose endpoint was called. -/
def predictedResult (r : Except Error Output) (batchSize : ℕ) : BatchResult Output :=
  match r with
  | .ok output => ⟨some output, none, batchSize⟩
  | .error e => ⟨none, some (e.typeName ++ ": " ++ e.text), batchSize⟩

/-- What `infer` returns or raises for a popped result. -/
def deliver (request : InferenceRequest Input) (latencyMs : ℚ) (result : BatchResult Output) :
    Except Error (InferenceResponse Output) :=
  match result.error with
  | some error =>
    .error ⟨"RuntimeError", s!"Inference failed for model {pyRepr request.modelId}: " ++ error⟩
  | none => .ok
      { requestId := request.requestId
        modelId := request.modelId
        output := result.output
        latencyMs
        batchSize := result.batchSize
        gpuId := none
        costUsd := 0 }

/-! ## Batches -/

/-- `by_model`: the requests of a batch grouped by model id, models in order of first use. -/
def byModel (batch : List (InferenceRequest Input)) :
    Dict String (List (InferenceRequest Input)) :=
  batch.foldl (fun d r => d.set r.modelId (d.getD r.modelId [] ++ [r])) ∅

/-- The results after a group without a model. -/
def missGroup (modelId : String) (batchSize : ℕ) (requests : List (InferenceRequest Input))
    (results : Dict String (BatchResult Output)) : Dict String (BatchResult Output) :=
  requests.foldl (fun d r => d.set r.requestId (missingResult modelId batchSize)) results

/-- The results and the world after a group was predicted, request by request. -/
def predictGroup (endpoint : Endpoint Input Output World) (batchSize : ℕ) :
    List (InferenceRequest Input) → Dict String (BatchResult Output) → World →
      Dict String (BatchResult Output) × World
  | [], results, world => (results, world)
  | r :: rs, results, world =>
    let (outcome, world) := endpoint.predict world r.inputData
    predictGroup endpoint batchSize rs (results.set r.requestId (predictedResult outcome batchSize))
      world

/-- The invocations of `predict` on a group: each request with the world it finds. -/
def invocations (endpoint : Endpoint Input Output World) :
    List (InferenceRequest Input) → World → List (InferenceRequest Input × World)
  | [], _ => []
  | r :: rs, world => (r, world) :: invocations endpoint rs (endpoint.predict world r.inputData).2

/-- The requests of a list of groups. -/
def ungroup (groups : List (String × List (InferenceRequest Input))) :
    List (InferenceRequest Input) :=
  groups.flatMap Prod.snd

@[simp] theorem ungroup_cons (m : String) (rs : List (InferenceRequest Input))
    (groups : List (String × List (InferenceRequest Input))) :
    ungroup ((m, rs) :: groups) = rs ++ ungroup groups := List.flatMap_cons

/-- Appending to one group adds the request to the grouped ones. -/
theorem ungroup_setItem (m : String) (r : InferenceRequest Input)
    (groups : List (String × List (InferenceRequest Input))) :
    (ungroup (Dict.setItem m ((Dict.lookupItem m groups).getD [] ++ [r]) groups)).Perm
      (ungroup groups ++ [r]) := by
  induction groups with
  | nil => simp [Dict.lookupItem, Dict.setItem, ungroup]
  | cons g groups ih =>
    obtain ⟨m', rs⟩ := g
    by_cases h : m' = m
    · simp only [Dict.lookupItem, Dict.setItem, h, if_true, ungroup_cons, Option.getD_some,
        List.append_assoc]
      exact List.Perm.append_left rs List.perm_append_comm
    · simp only [Dict.lookupItem, Dict.setItem, h, if_false, ungroup_cons, List.append_assoc]
      exact List.Perm.append_left rs ih

theorem byModel_snoc (batch : List (InferenceRequest Input)) (r : InferenceRequest Input) :
    byModel (batch ++ [r]) =
      (byModel batch).set r.modelId ((byModel batch).getD r.modelId [] ++ [r]) := by
  unfold byModel
  rw [List.foldl_append]
  rfl

/-- Grouping keeps every request. -/
theorem ungroup_byModel (batch : List (InferenceRequest Input)) :
    (ungroup (byModel batch).entries).Perm batch := by
  induction batch using List.reverseRecOn with
  | nil => exact List.Perm.refl _
  | append_singleton batch r ih =>
    rw [byModel_snoc]
    exact (ungroup_setItem r.modelId r _).trans (ih.append_right [r])

/-- The requests of a group are for the model of the group. -/
theorem modelId_of_mem_byModel {batch : List (InferenceRequest Input)} {m : String}
    {rs : List (InferenceRequest Input)} (h : (m, rs) ∈ (byModel batch).entries) :
    ∀ r ∈ rs, r.modelId = m := by
  rw [← Dict.get?_eq_some] at h
  induction batch using List.reverseRecOn generalizing m rs with
  | nil => cases h
  | append_singleton batch r ih =>
    rw [byModel_snoc, Dict.get?_set] at h
    split_ifs at h with hm
    · obtain rfl := Option.some.inj h
      intro r' hr'
      rcases List.mem_append.mp hr' with hr' | hr'
      · unfold Dict.getD at hr'
        cases hg : (byModel batch).get? r.modelId with
        | none => rw [hg] at hr'; cases hr'
        | some rs' => rw [hg] at hr'; exact hm ▸ ih hg r' hr'
      · rw [List.mem_singleton.mp hr', hm]
    · exact ih h

theorem mem_of_mem_byModel {batch : List (InferenceRequest Input)} {m : String}
    {rs : List (InferenceRequest Input)} (h : (m, rs) ∈ (byModel batch).entries) :
    ∀ r ∈ rs, r ∈ batch := fun _ hr =>
  (ungroup_byModel batch).mem_iff.mp (List.mem_flatMap.mpr ⟨(m, rs), h, hr⟩)

/-- What a group without a model leaves under an id. -/
theorem get?_missGroup (modelId : String) (batchSize : ℕ) (rs : List (InferenceRequest Input))
    (results : Dict String (BatchResult Output)) (id : String) :
    (missGroup modelId batchSize rs results).get? id =
      if id ∈ rs.map InferenceRequest.requestId then some (missingResult modelId batchSize)
      else results.get? id := by
  unfold missGroup
  induction rs generalizing results with
  | nil => simp
  | cons r rs ih =>
    rw [List.foldl_cons, ih, Dict.get?_set]
    simp only [List.map_cons, List.mem_cons]
    by_cases hrs : id ∈ rs.map InferenceRequest.requestId
    · rw [if_pos hrs, if_pos (Or.inr hrs)]
    · by_cases hr : id = r.requestId
      · rw [if_neg hrs, if_pos hr, if_pos (Or.inl hr)]
      · rw [if_neg hrs, if_neg hr, if_neg (not_or.mpr ⟨hr, hrs⟩)]

/-- What a predicted group leaves under an id: what was there, or the prediction of one of its
requests with that id. -/
theorem get?_predictGroup (endpoint : Endpoint Input Output World) (batchSize : ℕ)
    (rs : List (InferenceRequest Input)) (results : Dict String (BatchResult Output))
    (world : World) (id : String) :
    ((predictGroup endpoint batchSize rs results world).1.get? id = results.get? id ∧
        id ∉ rs.map InferenceRequest.requestId) ∨
      ∃ r w, r.requestId = id ∧ (r, w) ∈ invocations endpoint rs world ∧
        (predictGroup endpoint batchSize rs results world).1.get? id =
          some (predictedResult (endpoint.predict w r.inputData).1 batchSize) := by
  induction rs generalizing results world with
  | nil => exact Or.inl ⟨rfl, List.not_mem_nil⟩
  | cons r rs ih =>
    rcases ih (results.set r.requestId
        (predictedResult (endpoint.predict world r.inputData).1 batchSize))
        (endpoint.predict world r.inputData).2 with ⟨hget, hmem⟩ | ⟨r', w, hid, hmem, hget⟩
    · by_cases hr : r.requestId = id
      · refine Or.inr ⟨r, world, hr, List.mem_cons_self, ?_⟩
        rw [predictGroup]
        dsimp only
        rw [hget, Dict.get?_set, if_pos hr.symm]
      · refine Or.inl ⟨?_, ?_⟩
        · rw [predictGroup]
          dsimp only
          rw [hget, Dict.get?_set, if_neg (Ne.symm hr)]
        · rw [List.map_cons, List.mem_cons]
          rintro (h | h)
          · exact hr h.symm
          · exact hmem h
    · exact Or.inr ⟨r', w, hid, List.mem_cons_of_mem _ hmem, hget⟩

theorem map_fst_invocations (endpoint : Endpoint Input Output World)
    (rs : List (InferenceRequest Input)) (world : World) :
    (invocations endpoint rs world).map Prod.fst = rs := by
  induction rs generalizing world with
  | nil => rfl
  | cons r rs ih => rw [invocations, List.map_cons, ih]

/-! ## Calls and the engine -/

/-- Where an `infer` call is. -/
inductive Pc (Input Output World : Type)
  /-- Not started. -/
  | created
  /-- Awaiting `batch_queue.add`. -/
  | adding
  /-- At the test of the `while` loop. -/
  | looping
  /-- Awaiting `batch_queue.should_flush`. -/
  | polling
  /-- In `asyncio.sleep`. -/
  | sleeping
  /-- Awaiting `batch_queue.flush`. -/
  | flushing
  /-- In `_run_batch_inference`, awaiting the endpoint of the first of the groups left; with no
  group left, about to publish the results. -/
  | batching (batch : List (InferenceRequest Input))
      (groups : List (String × List (InferenceRequest Input)))
      (results : Dict String (BatchResult Output))
  /-- In `_run_batch_inference`, with the endpoint for `requests` in hand. -/
  | predicting (batch : List (InferenceRequest Input)) (endpoint : Endpoint Input Output World)
      (requests : List (InferenceRequest Input))
      (groups : List (String × List (InferenceRequest Input)))
      (results : Dict String (BatchResult Output))
  /-- Returned or raised. -/
  | finished (outcome : Except Error (InferenceResponse Output))

/-- An `infer` call: its position and the time it started. -/
structure Call (Input Output World : Type) where
  startTime : ℚ
  pc : Pc Input Output World

/-- The engine, with the clock, the endpoints' world and the pool of calls. -/
structure Engine (ι Input Output World : Type) where
  batchQueue : BatchQueue (InferenceRequest Input)
  modelCache : Dict String (Endpoint Input Output World)
  results : Dict String (BatchResult Output)
  world : World
  now : ℚ
  calls : ι → Call Input Output World

/-- What can happen next: a call runs to its next await, the clock moves, a model is loaded. -/
inductive Action (ι Input Output World : Type)
  | run (i : ι)
  | tick (now : ℚ)
  | load (modelId : String) (endpoint : Endpoint Input Output World)

/-- What a step does to batches: call `i` hands a batch to `_run_batch_inference`, looks an
endpoint up for it, invokes `predict` for one of its requests, or publishes its results. -/
inductive Event (ι Input Output World : Type)
  | flushed (i : ι) (batch : List (InferenceRequest Input))
  | looked (i : ι) (batch : List (InferenceRequest Input)) (modelId : String)
      (found : Option (Endpoint Input Output World))
  | predicted (i : ι) (batch : List (InferenceRequest Input)) (request : InferenceRequest Input)
      (endpoint : Endpoint Input Output World) (world : World)
  | published (i : ι) (batch : List (InferenceRequest Input))

namespace Engine

variable {ι : Type} [DecidableEq ι]

/-- The engine before the calls start, with nothing queued or published. -/
def init (maxBatchSize : ℤ) (maxWaitMs : ℚ) (modelCache : Dict String (Endpoint Input Output World))
    (world : World) (now : ℚ) : Engine ι Input Output World :=
  { batchQueue := { maxBatchSize, maxWaitMs }, modelCache, results := ∅, world, now,
    calls := fun _ => ⟨0, .created⟩ }

/-- Replace call `i`. -/
def setCall (s : Engine ι Input Output World) (i : ι) (c : Call Input Output World) :
    Engine ι Input Output World :=
  { s with calls := Function.update s.calls i c }

/-- Move call `i` to `pc`. -/
def goto (s : Engine ι Input Output World) (i : ι) (pc : Pc Input Output World) :
    Engine ι Input Output World :=
  s.setCall i { s.calls i with pc }

variable (requests : ι → InferenceRequest Input)

/-- Run call `i` to its next await. -/
def advance (s : Engine ι Input Output World) (i : ι) : Engine ι Input Output World :=
  let request := requests i
  match (s.calls i).pc with
  | .created => s.setCall i ⟨s.now, .adding⟩
  | .adding => { s with batchQueue := s.batchQueue.add s.now request }.goto i .looping
  | .looping =>
    match s.results.get? request.requestId with
    | none => s.goto i .polling
    | some result =>
      { s with results := s.results.erase request.requestId }.goto i
        (.finished (deliver request ((s.now - (s.calls i).startTime) * 1000) result))
  | .polling => s.goto i (if s.batchQueue.shouldFlush s.now then .flushing else .sleeping)
  | .sleeping => s.goto i .looping
  | .flushing =>
    let (batch, batchQueue) := s.batchQueue.flush
    if batch = [] then { s with batchQueue }.goto i .looping
    else { s with batchQueue }.goto i (.batching batch (byModel batch).entries ∅)
  | .batching _ [] results => { s with results := s.results.update results }.goto i .looping
  | .batching batch ((modelId, rs) :: groups) results =>
    match s.modelCache.get? modelId with
    | none => s.goto i (.batching batch groups (missGroup modelId batch.length rs results))
    | some endpoint => s.goto i (.predicting batch endpoint rs groups results)
  | .predicting batch endpoint rs groups results =>
    let (results, world) := predictGroup endpoint batch.length rs results s.world
    { s with world }.goto i (.batching batch groups results)
  | .finished _ => s

/-- The events of that run. -/
def observe (s : Engine ι Input Output World) (i : ι) : List (Event ι Input Output World) :=
  match (s.calls i).pc with
  | .flushing => if s.batchQueue.queue = [] then [] else [.flushed i s.batchQueue.queue]
  | .batching batch [] _ => [.published i batch]
  | .batching batch ((modelId, _) :: _) _ => [.looked i batch modelId (s.modelCache.get? modelId)]
  | .predicting batch endpoint rs _ _ =>
    (invocations endpoint rs s.world).map fun p => .predicted i batch p.1 endpoint p.2
  | _ => []

/-- The engine after an action. -/
def step (s : Engine ι Input Output World) : Action ι Input Output World →
    Engine ι Input Output World
  | .run i => s.advance requests i
  | .tick now => { s with now }
  | .load modelId endpoint => { s with modelCache := s.modelCache.set modelId endpoint }

/-- The events of an action. -/
def emit (s : Engine ι Input Output World) : Action ι Input Output World →
    List (Event ι Input Output World)
  | .run i => s.observe i
  | _ => []

/-- The events of a schedule. -/
def events (s : Engine ι Input Output World) (tr : List (Action ι Input Output World)) :
    List (Event ι Input Output World) :=
  Machine.log (step requests) emit s tr

/-! ## The moves of a call -/

/-- What a run of call `i` from `s` can lead to, with its events: one case for each way through
the code between two awaits. -/
inductive Moves (s : Engine ι Input Output World) (i : ι) :
    Engine ι Input Output World → List (Event ι Input Output World) → Prop
  | start (h : (s.calls i).pc = .created) : Moves s i (s.setCall i ⟨s.now, .adding⟩) []
  | add (h : (s.calls i).pc = .adding) :
    Moves s i ({ s with batchQueue := s.batchQueue.add s.now (requests i) }.goto i .looping) []
  | poll (h : (s.calls i).pc = .looping) (hr : s.results.get? (requests i).requestId = none) :
    Moves s i (s.goto i .polling) []
  | pop (h : (s.calls i).pc = .looping) (result : BatchResult Output)
    (hr : s.results.get? (requests i).requestId = some result) :
    Moves s i ({ s with results := s.results.erase (requests i).requestId }.goto i
      (.finished (deliver (requests i) ((s.now - (s.calls i).startTime) * 1000) result))) []
  | ready (h : (s.calls i).pc = .polling) (hf : s.batchQueue.shouldFlush s.now = true) :
    Moves s i (s.goto i .flushing) []
  | sleep (h : (s.calls i).pc = .polling) (hf : s.batchQueue.shouldFlush s.now = false) :
    Moves s i (s.goto i .sleeping) []
  | wake (h : (s.calls i).pc = .sleeping) : Moves s i (s.goto i .looping) []
  | flushEmpty (h : (s.calls i).pc = .flushing) (hq : s.batchQueue.queue = []) :
    Moves s i ({ s with batchQueue := s.batchQueue.flush.2 }.goto i .looping) []
  | flush (h : (s.calls i).pc = .flushing) (hq : s.batchQueue.queue ≠ []) :
    Moves s i ({ s with batchQueue := s.batchQueue.flush.2 }.goto i
        (.batching s.batchQueue.queue (byModel s.batchQueue.queue).entries ∅))
      [.flushed i s.batchQueue.queue]
  | publish (batch : List (InferenceRequest Input)) (results : Dict String (BatchResult Output))
    (h : (s.calls i).pc = .batching batch [] results) :
    Moves s i ({ s with results := s.results.update results }.goto i .looping)
      [.published i batch]
  | missing (batch : List (InferenceRequest Input)) (modelId : String)
    (rs : List (InferenceRequest Input))
    (groups : List (String × List (InferenceRequest Input)))
    (results : Dict String (BatchResult Output))
    (h : (s.calls i).pc = .batching batch ((modelId, rs) :: groups) results)
    (hm : s.modelCache.get? modelId = none) :
    Moves s i (s.goto i (.batching batch groups (missGroup modelId batch.length rs results)))
      [.looked i batch modelId none]
  | found (batch : List (InferenceRequest Input)) (modelId : String)
    (rs : List (InferenceRequest Input))
    (groups : List (String × List (InferenceRequest Input)))
    (results : Dict String (BatchResult Output)) (endpoint : Endpoint Input Output World)
    (h : (s.calls i).pc = .batching batch ((modelId, rs) :: groups) results)
    (hm : s.modelCache.get? modelId = some endpoint) :
    Moves s i (s.goto i (.predicting batch endpoint rs groups results))
      [.looked i batch modelId (some endpoint)]
  | predict (batch : List (InferenceRequest Input)) (endpoint : Endpoint Input Output World)
    (rs : List (InferenceRequest Input))
    (groups : List (String × List (InferenceRequest Input)))
    (results : Dict String (BatchResult Output))
    (h : (s.calls i).pc = .predicting batch endpoint rs groups results) :
    Moves s i ({ s with world := (predictGroup endpoint batch.length rs results s.world).2 }.goto i
        (.batching batch groups (predictGroup endpoint batch.length rs results s.world).1))
      ((invocations endpoint rs s.world).map fun p => .predicted i batch p.1 endpoint p.2)
  | stay (outcome : Except Error (InferenceResponse Output))
    (h : (s.calls i).pc = .finished outcome) : Moves s i s []

/-- A run of a call is one of the moves. -/
theorem advance_moves (s : Engine ι Input Output World) (i : ι) :
    Moves requests s i (s.advance requests i) (s.observe i) := by
  unfold advance observe
  cases h : (s.calls i).pc with
  | created => exact .start h
  | adding => exact .add h
  | looping =>
    dsimp only
    cases hr : s.results.get? (requests i).requestId with
    | none => exact .poll h hr
    | some result => exact .pop h result hr
  | polling =>
    cases hf : s.batchQueue.shouldFlush s.now with
    | true => exact .ready h hf
    | false => exact .sleep h hf
  | sleeping => exact .wake h
  | flushing =>
    dsimp only
    by_cases hq : s.batchQueue.queue = []
    · rw [if_pos (show s.batchQueue.flush.1 = [] from hq), if_pos hq]
      exact .flushEmpty h hq
    · rw [if_neg (show s.batchQueue.flush.1 ≠ [] from hq), if_neg hq]
      exact .flush h hq
  | batching batch groups results =>
    cases groups with
    | nil => exact .publish batch results h
    | cons g groups =>
      obtain ⟨modelId, rs⟩ := g
      dsimp only
      cases hm : s.modelCache.get? modelId with
      | none => exact .missing batch modelId rs groups results h hm
      | some endpoint => exact .found batch modelId rs groups results endpoint h hm
  | predicting batch endpoint rs groups results => exact .predict batch endpoint rs groups results h
  | finished outcome => exact .stay outcome h

/-- The other calls stay where they are. -/
theorem calls_of_moves {s s' : Engine ι Input Output World} {i j : ι}
    {evs : List (Event ι Input Output World)} (hm : Moves requests s i s' evs) (hj : j ≠ i) :
    s'.calls j = s.calls j := by
  cases hm <;> first | rfl | exact Function.update_of_ne hj _ _

/-- A property of positions holds after a move, if it holds before and at the new position. -/
theorem forall_pc_of_moves {Q : ι → Pc Input Output World → Prop}
    {s s' : Engine ι Input Output World} {i : ι} {evs : List (Event ι Input Output World)}
    (hm : Moves requests s i s' evs) (hi : Q i (s'.calls i).pc)
    (hs : ∀ j, j ≠ i → Q j (s.calls j).pc) (j : ι) : Q j (s'.calls j).pc := by
  by_cases hj : j = i
  · exact hj ▸ hi
  · rw [calls_of_moves requests hm hj]
    exact hs j hj

theorem setCall_calls_self (s : Engine ι Input Output World) (i : ι)
    (c : Call Input Output World) : (s.setCall i c).calls i = c := Function.update_self _ _ _

theorem goto_pc_self (s : Engine ι Input Output World) (i : ι) (pc : Pc Input Output World) :
    ((s.goto i pc).calls i).pc = pc := by
  unfold goto
  rw [setCall_calls_self]

theorem calls_goto_of_ne (s : Engine ι Input Output World) {i j : ι} (pc : Pc Input Output World)
    (hj : j ≠ i) : (s.goto i pc).calls j = s.calls j := Function.update_of_ne hj _ _

/-! ## The log of predictions -/

/-- The logged calls of `predict`, made one after the other from the world `w`, find the worlds they
are logged with and leave the world `w'`. -/
def Threads (w' : World) : World → List (Event ι Input Output World) → Prop
  | w, [] => w = w'
  | w, .predicted _ _ r endpoint found :: evs =>
    found = w ∧ Threads w' (endpoint.predict w r.inputData).2 evs
  | w, _ :: evs => Threads w' w evs

omit [DecidableEq ι] in
theorem threads_append {w w₁ w₂ : World} {evs evs' : List (Event ι Input Output World)}
    (h : Threads w₁ w evs) (h' : Threads w₂ w₁ evs') : Threads w₂ w (evs ++ evs') := by
  induction evs generalizing w with
  | nil => exact h ▸ h'
  | cons e evs ih =>
    cases e with
    | predicted i batch r endpoint found => exact ⟨h.1, ih h.2⟩
    | flushed i batch => exact ih h
    | looked i batch modelId found => exact ih h
    | published i batch => exact ih h

omit [DecidableEq ι] in
theorem threads_invocations (i : ι) (batch : List (InferenceRequest Input))
    (endpoint : Endpoint Input Output World) (batchSize : ℕ) (rs : List (InferenceRequest Input))
    (results : Dict String (BatchResult Output)) (w : World) :
    Threads (predictGroup endpoint batchSize rs results w).2 w
      ((invocations endpoint rs w).map fun p => .predicted i batch p.1 endpoint p.2) := by
  induction rs generalizing results w with
  | nil => exact rfl
  | cons r rs ih => exact ⟨rfl, ih _ _⟩

theorem threads_of_moves {s s' : Engine ι Input Output World} {i : ι}
    {evs : List (Event ι Input Output World)} (hm : Moves requests s i s' evs) :
    Threads s'.world s.world evs := by
  cases hm with
  | predict batch endpoint rs groups results h =>
    exact threads_invocations i batch endpoint batch.length rs results s.world
  | _ => exact rfl

/-- The log holds all calls of `predict`: the endpoints' world changes by them alone, and each finds
what those before it left. -/
theorem threads_events (s : Engine ι Input Output World) (tr : List (Action ι Input Output World)) :
    Threads (Machine.run (step requests) s tr).world s.world (events requests s tr) := by
  unfold events
  induction tr generalizing s with
  | nil => exact rfl
  | cons a tr ih =>
    have hstep : Threads (step requests s a).world s.world (emit s a) := by
      cases a with
      | run i => exact threads_of_moves requests (advance_moves requests s i)
      | tick now => exact rfl
      | load modelId endpoint => exact rfl
    exact threads_append hstep (ih (step requests s a))

end Engine

end PyStreamAI
