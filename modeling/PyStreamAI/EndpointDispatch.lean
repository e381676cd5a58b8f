import PyStreamAI.GroupedInference
import PyStreamAI.MultiGpu
import PyStreamAI.Py.Path

/-!
# How an endpoint runs its model

`Endpoint` takes an ONNX model, an object with an attribute `predict` or a callable, and refuses
everything else when it is made. Its `predict` calls what it found. Each such call is in the trace,
with the input it had. The batches of the inference engine, over a cache of these endpoints, make
exactly one call for each request whose model is loaded, of the model loaded last, with the request's
own input, and hand out its answer (`batch_calls`). An attribute `predict` that cannot be called is
taken as well, and answers no request.
-/

open Py Machine

namespace PyStreamAI

namespace Dispatch

/-! ## Models -/

/-- ONNX model loader; the session is there once the model is loaded. -/
structure ONNXModelLoader (F : Type) where
  modelPath : Path
  session : Option F := none

/-- An attribute `predict`: something that can be called, or a value of the type named. -/
inductive Attribute (F : Type)
  | callable (f : F)
  | value (typeName : String)

/-- What can be given to `serve` as a model. -/
inductive Model (F : Type)
  /-- `None`. -/
  | absent
  | loader (loader : ONNXModelLoader F)
  /-- A string or a path. -/
  | path (name : String)
  /-- An object with an attribute `predict`, callable itself, both or neither. -/
  | object (predict : Option (Attribute F)) (call : Option F)

variable {F : Type}

/-- `hasattr(model, "predict")`. -/
def Model.hasPredict : Model F → Bool
  | .object predict _ => predict.isSome
  | .absent => false
  | .loader _ => false
  | .path _ => false

/-- `callable(model)`. -/
def Model.isCallable : Model F → Bool
  | .object _ call => call.isSome
  | .absent => false
  | .loader _ => false
  | .path _ => false

/-- Load ONNX model: `inferenceSession` is what `onnxruntime` makes of a file. -/
def ONNXModelLoader.load (inferenceSession : Path → Except Error F) (l : ONNXModelLoader F) :
    Except Error (ONNXModelLoader F) := do
  let session ← inferenceSession l.modelPath
  return { l with session := some session }

/-! ## Endpoints -/

inductive EndpointStatus
  | running
  | stopped
  deriving DecidableEq

/-- Return a loaded loader if the model is a real ONNX model, else none. -/
def tryLoadOnnx (inferenceSession : Path → Except Error F) :
    Model F → Except Error (Option (ONNXModelLoader F))
  | .absent => .ok none
  | .loader l => if l.session.isSome then .ok (some l) else (l.load inferenceSession).map some
  | .path name =>
    if name.endsWith ".onnx" then
      (ONNXModelLoader.load inferenceSession { modelPath := Path.ofString name }).map some
    else .ok none
  | .object _ _ => .ok none

theorem session_load {inferenceSession : Path → Except Error F} {l l' : ONNXModelLoader F}
    (h : l.load inferenceSession = .ok l') : l'.session.isSome := by
  unfold ONNXModelLoader.load at h
  cases hs : inferenceSession l.modelPath with
  | error e =>
    rw [hs] at h
    cases h
  | ok session =>
    rw [hs] at h
    obtain rfl := Except.ok.inj h
    rfl

/-- A loader that is returned has a session. -/
theorem session_tryLoadOnnx {inferenceSession : Path → Except Error F} {model : Model F}
    {l : ONNXModelLoader F} (h : tryLoadOnnx inferenceSession model = .ok (some l)) :
    l.session.isSome := by
  have hmap : ∀ {l₀ : ONNXModelLoader F},
      (l₀.load inferenceSession).map some = .ok (some l) → l.session.isSome := by
    intro l₀ hload
    cases hl : l₀.load inferenceSession with
    | error e =>
      rw [hl] at hload
      cases hload
    | ok l₁ =>
      rw [hl] at hload
      obtain rfl := Option.some.inj (Except.ok.inj hload)
      exact session_load hl
  cases model with
  | absent => cases h
  | object predict call => cases h
  | loader l₀ =>
    rw [tryLoadOnnx] at h
    split_ifs at h with hs
    · obtain rfl := Option.some.inj (Except.ok.inj h)
      exact hs
    · exact hmap h
  | path name =>
    rw [tryLoadOnnx] at h
    split_ifs at h
    · exact hmap h
    · cases h

/-- Deployed model endpoint. -/
structure Endpoint (F : Type) where
  modelId : String
  replicas : ℤ
  gpu : Option String
  status : EndpointStatus
  gpuOptimizer : Option GPUOptimizer
  model : Model F
  onnxModel : Option (ONNXModelLoader F)
  loaded : ∀ l, onnxModel = some l → l.session.isSome
  servable : onnxModel.isSome ∨ model.hasPredict ∨ model.isCallable

/-- The error for a model that cannot be run; `repr` is its `repr`. -/
def notServable (repr : String) : Error :=
  ⟨"TypeError", s!"serve(model={repr}) has no real way to run inference: it's not a " ++
    "real .onnx file/ONNXModelLoader, has no callable .predict(), and isn't " ++
    "itself callable. Pass one of those, or wrap your model in a small " ++
    "callable/class with a .predict(data) method."⟩

/-- Calling a value that is not a function. -/
def notCallable (typeName : String) : Error :=
  ⟨"TypeError", s!"{pyRepr typeName} object is not callable"⟩

/-- What `predict` returns, without the time it took. -/
structure Prediction (Output : Type) where
  model : String
  output : Output
  gpu : Option String

namespace Endpoint

/-- `Endpoint(model_id, replicas, gpu, model)`. -/
def new (inferenceSession : Path → Except Error F) (modelId : String) (replicas : ℤ)
    (gpu : Option String) (model : Model F) (repr : String) : Except Error (Endpoint F) :=
  match hload : tryLoadOnnx inferenceSession model with
  | .error e => .error e
  | .ok onnxModel =>
    if h : onnxModel.isSome ∨ model.hasPredict ∨ model.isCallable then
      .ok { modelId, replicas, gpu, model, onnxModel
            status := .running
            gpuOptimizer := (gpu.filter (· ≠ "")).map fun gpuType =>
              { gpuType, tensorrtConfig := { fp16 := true, int8 := false, sparsity := false } }
            loaded := fun _ hl => session_tryLoadOnnx (hl ▸ hload)
            servable := h }
    else .error (notServable repr)

end Endpoint

/-! ## Calls -/

section Calls

variable {Input Output : Type}

/-- What the functions of the models answer, after the calls so far. -/
abbrev Answers (F Input Output : Type) := List (F × Input) → F → Input → Except Error Output

variable (answers : Answers F Input Output) (trace : List (F × Input)) (data : Input)

/-- `f(data)`. -/
def callFunction (f : F) : Except Error Output × List (F × Input) :=
  (answers trace f data, trace ++ [(f, data)])

/-- Run inference. -/
def ONNXModelLoader.infer (l : ONNXModelLoader F) : Except Error Output × List (F × Input) :=
  match l.session with
  | none => (.error ⟨"RuntimeError", "Model not loaded. Call load() first."⟩, trace)
  | some session => callFunction answers trace data session

/-- `model.predict(data)`. -/
def Attribute.call : Attribute F → Except Error Output × List (F × Input)
  | .callable f => callFunction answers trace data f
  | .value typeName => (.error (notCallable typeName), trace)

/-- `model(data)`. -/
def Model.call : Model F → Except Error Output × List (F × Input)
  | .object _ (some f) => callFunction answers trace data f
  | .object _ none => (.error (notCallable "object"), trace)
  | .absent => (.error (notCallable "NoneType"), trace)
  | .loader _ => (.error (notCallable "ONNXModelLoader"), trace)
  | .path _ => (.error (notCallable "str"), trace)

namespace Endpoint

/-- Run real inference on the endpoint. -/
def predict (e : Endpoint F) : Except Error (Prediction Output) × List (F × Input) :=
  let (output, trace) :=
    match e.onnxModel with
    | some l => l.infer answers trace data
    | none =>
      match e.model with
      | .object (some attr) _ => attr.call answers trace data
      | model => model.call answers trace data
  (output.map fun output => { model := e.modelId, output, gpu := e.gpu }, trace)

/-- The endpoint as the engine sees it: it takes the `"output"` of what is returned. -/
def toEngine (e : Endpoint F) : PyStreamAI.Endpoint Input Output (List (F × Input)) where
  modelId := e.modelId
  predict trace data :=
    ((e.predict answers trace data).1.map Prediction.output, (e.predict answers trace data).2)

/-- The function that `predict` calls. -/
def callee (e : Endpoint F) : Option F :=
  match e.onnxModel with
  | some l => l.session
  | none =>
    match e.model with
    | .object (some (.callable f)) _ => some f
    | .object (some (.value _)) _ => none
    | .object none call => call
    | .absent => none
    | .loader _ => none
    | .path _ => none

/-- `predict` calls one function once, or else an attribute that is none. -/
theorem predict_cases (e : Endpoint F) :
    (∃ f, e.callee = some f ∧ e.predict answers trace data =
      ((answers trace f data).map fun output => { model := e.modelId, output, gpu := e.gpu },
        trace ++ [(f, data)])) ∨
    ∃ typeName call, e.onnxModel = none ∧ e.model = .object (some (.value typeName)) call ∧
      e.callee = none ∧ e.predict answers trace data = (.error (notCallable typeName), trace) := by
  unfold predict callee
  cases honnx : e.onnxModel with
  | some l =>
    obtain ⟨session, hsession⟩ := Option.isSome_iff_exists.mp (e.loaded l honnx)
    refine .inl ⟨session, hsession, ?_⟩
    dsimp only
    rw [ONNXModelLoader.infer, hsession]
    rfl
  | none =>
    have hservable := e.servable
    rw [honnx] at hservable
    cases hmodel : e.model with
    | absent => simp [hmodel, Model.hasPredict, Model.isCallable] at hservable
    | loader l => simp [hmodel, Model.hasPredict, Model.isCallable] at hservable
    | path name => simp [hmodel, Model.hasPredict, Model.isCallable] at hservable
    | object attr call =>
      rcases attr with _ | (f | typeName)
      · rcases call with _ | f
        · simp [hmodel, Model.hasPredict, Model.isCallable] at hservable
        · exact .inl ⟨f, rfl, rfl⟩
      · exact .inl ⟨f, rfl, rfl⟩
      · exact .inr ⟨typeName, call, rfl, rfl, rfl, rfl⟩

/-- An endpoint has a function to call, or an attribute `predict` that is none. -/
theorem callee_cases (e : Endpoint F) :
    e.callee.isSome ∨ ∃ typeName call, e.model = .object (some (.value typeName)) call := by
  rcases e.predict_cases (fun _ _ _ => Except.ok ()) [] () with
    ⟨f, hcallee, -⟩ | ⟨typeName, call, -, hmodel, -, -⟩
  · exact Or.inl (Option.isSome_of_eq_some hcallee)
  · exact Or.inr ⟨typeName, call, hmodel⟩

end Endpoint

end Calls

/-! ## The model cache -/

/-- A call of `ModelCache.set`, with what `onnxruntime` makes of files at that time. -/
structure Load (F : Type) where
  modelId : String
  model : Model F
  repr : String
  inferenceSession : Path → Except Error F

/-- The endpoint for a model that is loaded, or what its making raises. -/
def Load.endpoint (l : Load F) : Except Error (Endpoint F) :=
  Endpoint.new l.inferenceSession l.modelId 1 none l.model l.repr

/-- Load a real model into the cache. -/
def setModel (models : Dict String (Endpoint F)) (l : Load F) : Dict String (Endpoint F) :=
  match l.endpoint with
  | .error _ => models
  | .ok endpoint => models.set l.modelId endpoint

/-- The cache after some loads, whether or not they raised. -/
def loadAll (loads : List (Load F)) : Dict String (Endpoint F) := run setModel ∅ loads

/-- The endpoint of the last load of a model that did not raise. -/
def lastLoaded (loads : List (Load F)) (modelId : String) : Option (Endpoint F) :=
  (loads.filterMap fun l => if l.modelId = modelId then l.endpoint.toOption else none).getLast?

theorem get?_loadAll (loads : List (Load F)) (modelId : String) :
    (loadAll loads).get? modelId = lastLoaded loads modelId := by
  unfold loadAll lastLoaded
  induction loads using List.reverseRecOn with
  | nil => rfl
  | append_singleton loads l ih =>
    rw [run_snoc, List.filterMap_append, List.filterMap_cons, List.filterMap_nil, setModel]
    cases hl : l.endpoint with
    | error e => simp [Except.toOption, ih]
    | ok endpoint =>
      dsimp only
      rw [Dict.get?_set, ih]
      by_cases h : l.modelId = modelId
      · simp [h, Except.toOption]
      · rw [if_neg (Ne.symm h), if_neg h, List.append_nil]

section Batches

variable {Input Output : Type} (answers : Answers F Input Output) (loads : List (Load F))

/-- The call made for a request. -/
def callMade (r : InferenceRequest Input) : Option (F × Input) :=
  ((lastLoaded loads r.modelId).bind Endpoint.callee).map fun f => (f, r.inputData)

/-- The result of a request, after some calls. -/
def resultOf (batchSize : ℕ) (trace : List (F × Input)) (r : InferenceRequest Input) :
    BatchResult Output :=
  match lastLoaded loads r.modelId with
  | none => missingResult r.modelId batchSize
  | some endpoint =>
    predictedResult ((endpoint.predict answers trace r.inputData).1.map Prediction.output) batchSize

/-- The cache as the engine sees it. -/
def engineCache : Dict String (PyStreamAI.Endpoint Input Output (List (F × Input))) :=
  (loadAll loads).mapValues (Endpoint.toEngine answers)

theorem get?_engineCache (modelId : String) :
    (engineCache answers loads).get? modelId =
      (lastLoaded loads modelId).map (Endpoint.toEngine answers) := by
  unfold engineCache
  rw [Dict.get?_mapValues, get?_loadAll]

theorem serve_engineCache (trace : List (F × Input)) (r : InferenceRequest Input) :
    serve (engineCache answers loads) trace r = trace ++ (callMade loads r).toList := by
  unfold serve callMade
  rw [get?_engineCache]
  cases hl : lastLoaded loads r.modelId with
  | none => simp
  | some endpoint =>
    rcases endpoint.predict_cases answers trace r.inputData with
      ⟨f, hcallee, hpredict⟩ | ⟨typeName, call, -, -, hcallee, hpredict⟩
    · simp [Endpoint.toEngine, hpredict, hcallee]
    · simp [Endpoint.toEngine, hpredict, hcallee]

theorem run_serve_engineCache (trace : List (F × Input)) (rs : List (InferenceRequest Input)) :
    run (serve (engineCache answers loads)) trace rs = trace ++ rs.filterMap (callMade loads) := by
  induction rs using List.reverseRecOn with
  | nil => simp
  | append_singleton rs r ih =>
    rw [run_snoc, ih, serve_engineCache, List.filterMap_append, List.append_assoc]
    cases h : callMade loads r <;> simp [h]

theorem answer_engineCache (batchSize : ℕ) (trace : List (F × Input)) (r : InferenceRequest Input) :
    answer (engineCache answers loads) batchSize trace r =
      resultOf answers loads batchSize trace r := by
  unfold answer resultOf
  rw [get?_engineCache]
  cases lastLoaded loads r.modelId <;> rfl

/-- **Calls.** A batch is served in the order of its groups. It makes one call for each request whose
model has a function to call, of that function with the input of the request, and no other. Each
request gets the answer to its call. A model is refused, or has a function to call, or has an
attribute `predict` that is none. -/
theorem batch_calls (batch : List (InferenceRequest Input))
    (hids : (batch.map InferenceRequest.requestId).Nodup) (trace : List (F × Input)) :
    let out := runBatchInference (engineCache answers loads) batch trace
    let order := ungroup (byModel batch).entries
    order.Perm batch ∧ out.2 = trace ++ order.filterMap (callMade loads) ∧
    (∀ r ∈ batch, ∃ u v, order = u ++ r :: v ∧ out.1.get? r.requestId =
      some (resultOf answers loads batch.length (trace ++ u.filterMap (callMade loads)) r)) ∧
    ∀ modelId endpoint, lastLoaded loads modelId = some endpoint →
      endpoint.callee.isSome ∨
        ∃ typeName call, endpoint.model = .object (some (.value typeName)) call := by
  intro out order
  have hperm : order.Perm batch := ungroup_byModel batch
  have hn : (order.map InferenceRequest.requestId).Nodup := (hperm.map _).nodup_iff.mpr hids
  have hout : out = _ := runBatchInference_eq batch trace
  refine ⟨hperm, ?_, fun r hr => ?_, fun modelId endpoint _ => ?_⟩
  · rw [hout]
    exact run_serve_engineCache answers loads trace order
  · obtain ⟨u, v, huv⟩ := List.append_of_mem (hperm.mem_iff.mpr hr)
    refine ⟨u, v, huv, ?_⟩
    rw [hout]
    dsimp only
    rw [get?_assignAll (by rwa [map_fst_answers])]
    rw [show ungroup (byModel batch).entries = u ++ r :: v from huv]
    rw [huv] at hn
    rw [lookupItem_answers hn, run_serve_engineCache, answer_engineCache]
  · exact endpoint.callee_cases

end Batches

/-- A function, an attribute `predict` that is a number, and no model at all. -/
def threeLoads : List (Load String) :=
  [{ modelId := "f", model := .object none (some "f"), repr := "f",
     inferenceSession := fun _ => .ok "" },
   { modelId := "g", model := .object (some (.value "int")) (some "g"), repr := "g",
     inferenceSession := fun _ => .ok "" },
   { modelId := "h", model := .absent, repr := "None", inferenceSession := fun _ => .ok "" }]

theorem batch_calls_three :
    (runBatchInference
        (engineCache (fun trace f (data : ℕ) => .ok (f, data + trace.length)) threeLoads)
        [⟨"1", "g", 1⟩, ⟨"2", "f", 2⟩, ⟨"3", "h", 3⟩, ⟨"4", "f", 4⟩] []).2 =
      [("f", 2), ("f", 4)] ∧
    (ungroup (byModel ([⟨"1", "g", 1⟩, ⟨"2", "f", 2⟩, ⟨"3", "h", 3⟩, ⟨"4", "f", 4⟩] :
      List (InferenceRequest ℕ))).entries).Perm
        [⟨"1", "g", 1⟩, ⟨"2", "f", 2⟩, ⟨"3", "h", 3⟩, ⟨"4", "f", 4⟩] := by
  have h := batch_calls (fun trace f (data : ℕ) => .ok (f, data + trace.length)) threeLoads
    [⟨"1", "g", 1⟩, ⟨"2", "f", 2⟩, ⟨"3", "h", 3⟩, ⟨"4", "f", 4⟩] (by decide) []
  exact ⟨h.2.1.trans (by decide +kernel), h.1⟩

end Dispatch

end PyStreamAI
