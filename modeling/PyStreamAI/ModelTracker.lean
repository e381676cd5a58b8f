import Mathlib.Algebra.Order.Field.Rat
import Mathlib.Logic.Function.Basic
import PyStreamAI.Machine
import PyStreamAI.Py.Act

/-!
# Trackers of training runs

Trackers share one MLflow server, which may answer any call with an exception. A method of a tracker
catches it and goes on without what the failed call would have done; a tracker that could not import
`mlflow` asks nothing. Whatever the server answers, a model is registered under the run whose id its
own tracker read last (`lineage_run`).
-/

open Py Machine

namespace PyStreamAI

/-- What a tracker asks of `mlflow`: to be there, and its calls. -/
inductive MLflowCall (V : Type)
  | importMlflow
  | setTrackingUri (uri : String)
  | createExperiment (name : String)
  | setExperiment (name : String)
  | startRun (runName : String)
  | activeRunId
  | logParam (key : String) (value : V)
  | logMetric (key : String) (value : ℚ) (step : Option ℤ)
  | pytorchLogModel (model : V) (artifactPath : String)
  | onnxLogModel (model : V) (artifactPath : String)
  | logArtifact (model : V) (artifactPath : String)
  | registerModel (modelUri modelName : String)
  | setModelTag (modelUri key value : String)
  | endRun

/-- A call of a tracker with the answer. -/
structure MLflowEvent (ι V : Type) where
  owner : ι
  call : MLflowCall V
  reply : Except Exn String

/-- What the server answers to a call of a tracker, after what happened so far. -/
abbrev MLflowServer (ι V : Type) := List (MLflowEvent ι V) → ι → MLflowCall V → Except Exn String

/-- Track model training and inference. `mlflow` tells whether the registry has the module. -/
structure ModelTracker where
  mlflow : Bool
  experimentId : String
  currentRunId : Option String := none

/-- What all trackers did, and one of them. -/
structure TrackerSession (ι V : Type) where
  events : List (MLflowEvent ι V)
  tracker : ModelTracker

variable {ι V : Type}

/-! ## The registry -/

namespace MLflowRegistry

variable (server : MLflowServer ι V) (i : ι)

/-- One call of tracker `i`. -/
def ask (call : MLflowCall V) : Act (TrackerSession ι V) String := fun s =>
  let reply := server s.events i call
  (reply, { s with events := s.events ++ [⟨i, call, reply⟩] })

/-- A call whose answer is not used. -/
def tell (call : MLflowCall V) : Act (TrackerSession ι V) Unit := do
  let _ ← ask server i call

def trackingUri : String := "http://localhost:5000"

/-- `self.mlflow = mlflow`. -/
def setMlflow : Act (TrackerSession ι V) Unit := fun s => (.ok (), { s with tracker.mlflow := true })

/-- Initialize MLflow. Only an `ImportError` is caught. -/
def initMlflow : Act (TrackerSession ι V) Unit :=
  Act.orElseOn Error.isImportError (do
    tell server i .importMlflow
    tell server i (.setTrackingUri trackingUri)
    setMlflow) ()

/-- `if not self.mlflow: return default`, and else `x` with its `Exception`s handled. -/
def guarded {α : Type} (x : Act (TrackerSession ι V) α) (default : α) : Act (TrackerSession ι V) α :=
  (x.orElse default).when (·.tracker.mlflow) default

/-- Start a new MLflow experiment. -/
def startExperiment (experimentName : String) : Act (TrackerSession ι V) String :=
  guarded (do
    let experimentId ← ask server i (.createExperiment experimentName)
    tell server i (.setExperiment experimentName)
    return experimentId) "local"

/-- Log model to MLflow. -/
def logModel (model : V) (modelName : String) (artifactPath : String := "models")
    (modelFormat : String := "pytorch") : Act (TrackerSession ι V) String :=
  guarded (do
    if modelFormat = "pytorch" then tell server i (.pytorchLogModel model artifactPath)
    else if modelFormat = "onnx" then tell server i (.onnxLogModel model artifactPath)
    else tell server i (.logArtifact model artifactPath)
    return artifactPath ++ "/" ++ modelName) "local"

/-- Log hyperparameters. -/
def logParams (params : List (String × V)) : Act (TrackerSession ι V) Unit :=
  guarded (Act.forEach (fun p => tell server i (.logParam p.1 p.2)) params) ()

/-- Log metrics. -/
def logMetrics (metrics : List (String × ℚ)) (step : Option ℤ) : Act (TrackerSession ι V) Unit :=
  guarded (Act.forEach (fun m => tell server i (.logMetric m.1 m.2 step)) metrics) ()

/-- Register model in MLflow registry. -/
def registerModel (modelUri modelName : String) (tags : List (String × String)) :
    Act (TrackerSession ι V) String :=
  guarded (do
    let resultUri ← ask server i (.registerModel modelUri modelName)
    Act.forEach (fun t => tell server i (.setModelTag modelUri t.1 t.2)) tags
    return resultUri) "local"

end MLflowRegistry

/-! ## The tracker -/

/-- `f"runs:/{current_run_id}/models/{model_name}"`. -/
def runModelUri (currentRunId : Option String) (modelName : String) : String :=
  "runs:/" ++ currentRunId.getD "None" ++ "/models/" ++ modelName

namespace ModelTracker

open MLflowRegistry

variable (server : MLflowServer ι V) (i : ι)

/-- A tracker whose registry is made, before it is initialized. -/
def fresh : ModelTracker := ⟨false, "", none⟩

/-- `self.experiment_id = experiment_id`. -/
def setExperimentId (experimentId : String) : Act (TrackerSession ι V) Unit := fun s =>
  (.ok (), { s with tracker.experimentId := experimentId })

/-- `ModelTracker(experiment_name)`. -/
def init (experimentName : String) : Act (TrackerSession ι V) Unit := do
  initMlflow server i
  let experimentId ← startExperiment server i experimentName
  setExperimentId experimentId

/-- `self.current_run_id`. -/
def getRunId : Act (TrackerSession ι V) (Option String) := fun s => (.ok s.tracker.currentRunId, s)

/-- `self.current_run_id = mlflow.active_run().info.run_id`. -/
def readRunId : Act (TrackerSession ι V) Unit := fun s =>
  match ask server i .activeRunId s with
  | (.ok runId, s) => (.ok (), { s with tracker.currentRunId := some runId })
  | (.error e, s) => (.error e, s)

/-- Start training run. -/
def startTraining (modelName : String) (params : List (String × V)) :
    Act (TrackerSession ι V) Unit :=
  guarded (do
    tell server i (.startRun modelName)
    readRunId server i
    logParams server i params) ()

/-- Log training metrics. -/
def logTrainingMetrics (epoch : ℤ) (metrics : List (String × ℚ)) : Act (TrackerSession ι V) Unit :=
  logMetrics server i metrics (some epoch)

/-- End training run and register model. -/
def endTraining (model : V) (modelName : String) (tags : List (String × String)) :
    Act (TrackerSession ι V) Unit :=
  guarded (do
    let _ ← logModel server i model modelName
    let runId ← getRunId
    let _ ← registerModel server i (runModelUri runId modelName) modelName tags
    tell server i .endRun) ()

end ModelTracker

/-! ## Many trackers -/

/-- The server with the trackers that were made. -/
structure Trackers (ι V : Type) where
  events : List (MLflowEvent ι V)
  trackers : ι → Option ModelTracker

/-- A call of a method. -/
inductive TrackerOp (V : Type)
  | new (experimentName : String)
  | startTraining (modelName : String) (params : List (String × V))
  | logTrainingMetrics (epoch : ℤ) (metrics : List (String × ℚ))
  | endTraining (model : V) (modelName : String) (tags : List (String × String))

namespace Trackers

def init : Trackers ι V := ⟨[], fun _ => none⟩

variable [DecidableEq ι] (server : MLflowServer ι V)

/-- Tracker `i` is made, if it is not there yet, or runs a method, if it is. -/
def call (s : Trackers ι V) (i : ι) : TrackerOp V → Except Exn Unit × Trackers ι V
  | .new experimentName =>
    if (s.trackers i).isSome then (.ok (), s)
    else
      match ModelTracker.init server i experimentName ⟨s.events, ModelTracker.fresh⟩ with
      | (.ok (), s') => (.ok (), ⟨s'.events, Function.update s.trackers i (some s'.tracker)⟩)
      | (.error e, s') => (.error e, { s with events := s'.events })
  | .startTraining modelName params =>
    method s i (ModelTracker.startTraining server i modelName params)
  | .logTrainingMetrics epoch metrics =>
    method s i (ModelTracker.logTrainingMetrics server i epoch metrics)
  | .endTraining model modelName tags =>
    method s i (ModelTracker.endTraining server i model modelName tags)
where
  /-- Run a method of tracker `i`. -/
  method (s : Trackers ι V) (i : ι) (x : Act (TrackerSession ι V) Unit) :
      Except Exn Unit × Trackers ι V :=
    match s.trackers i with
    | none => (.ok (), s)
    | some tracker =>
      let (r, s') := x ⟨s.events, tracker⟩
      (r, ⟨s'.events, Function.update s.trackers i (some s'.tracker)⟩)

def step (s : Trackers ι V) (a : ι × TrackerOp V) : Trackers ι V := (s.call server a.1 a.2).2

end Trackers

/-! ## Lineage -/

/-- The call reads the id of the active run. -/
def MLflowCall.readsRunId : MLflowCall V → Bool
  | .activeRunId => true
  | _ => false

/-- The run id that a tracker read last. -/
def lastRunId [DecidableEq ι] (i : ι) (events : List (MLflowEvent ι V)) : Option String :=
  events.reverse.findSome? fun e =>
    if e.owner = i ∧ e.call.readsRunId = true then e.reply.toOption else none

/-- Models are registered under the run whose id their tracker read last. -/
def Lineage [DecidableEq ι] (events : List (MLflowEvent ι V)) : Prop :=
  ∀ pre e, pre ++ [e] <+: events → ∀ modelUri modelName,
    e.call = .registerModel modelUri modelName →
      modelUri = runModelUri (lastRunId e.owner pre) modelName

variable [DecidableEq ι]

theorem lastRunId_snoc (i : ι) (events : List (MLflowEvent ι V)) (e : MLflowEvent ι V) :
    lastRunId i (events ++ [e]) =
      (if e.owner = i ∧ e.call.readsRunId = true then e.reply.toOption else none).or
        (lastRunId i events) := by
  unfold lastRunId
  rw [List.reverse_append, List.reverse_singleton, List.singleton_append, List.findSome?_cons]
  generalize (if e.owner = i ∧ e.call.readsRunId = true then e.reply.toOption else none) = o
  cases o <;> rfl

theorem lastRunId_append {i : ι} {events evs : List (MLflowEvent ι V)}
    (h : ∀ e ∈ evs, e.owner ≠ i) : lastRunId i (events ++ evs) = lastRunId i events := by
  induction evs using List.reverseRecOn with
  | nil => rw [List.append_nil]
  | append_singleton evs e ih =>
    have he := h e (List.mem_append_right evs (List.mem_singleton.mpr rfl))
    rw [← List.append_assoc, lastRunId_snoc, if_neg fun hc => he hc.1,
      ih fun e' he' => h e' (List.mem_append_left [e] he')]
    rfl

theorem lineage_snoc {events : List (MLflowEvent ι V)} {e : MLflowEvent ι V}
    (h : Lineage events) (he : ∀ modelUri modelName, e.call = .registerModel modelUri modelName →
      modelUri = runModelUri (lastRunId e.owner events) modelName) : Lineage (events ++ [e]) := by
  intro pre e' hpre
  rcases List.prefix_concat_iff.mp hpre with heq | hpre
  · obtain ⟨rfl, hlast⟩ := List.append_inj' heq rfl
    obtain rfl := List.singleton_inj.mp hlast
    exact he
  · exact h pre e' hpre

/-- A tracker knows the id it read last, and so far all models were registered right. -/
structure Traced (i : ι) (s : TrackerSession ι V) : Prop where
  lineage : Lineage s.events
  runId : s.tracker.currentRunId = lastRunId i s.events

/-- The call neither reads the run id nor registers a model. -/
def MLflowCall.Plain : MLflowCall V → Prop
  | .activeRunId => False
  | .registerModel _ _ => False
  | _ => True

namespace MLflowRegistry

variable {server : MLflowServer ι V} {i : ι}

theorem traced_ask {call : MLflowCall V} (hread : call.readsRunId = false)
    {s : TrackerSession ι V} (h : Traced i s)
    (huri : ∀ modelUri modelName, call = .registerModel modelUri modelName →
      modelUri = runModelUri s.tracker.currentRunId modelName) :
    Traced i (ask server i call s).2 := by
  refine ⟨lineage_snoc h.lineage fun modelUri modelName hc => ?_, ?_⟩
  · rw [huri modelUri modelName hc, h.runId]
  · show s.tracker.currentRunId = lastRunId i (s.events ++ [_])
    rw [lastRunId_snoc, if_neg fun hc => by rw [hread] at hc; cases hc.2]
    exact h.runId

theorem keeps_ask {call : MLflowCall V} (hcall : call.Plain) :
    (ask server i call).Keeps (Traced i) := by
  intro s h
  refine traced_ask ?_ h fun modelUri modelName hc => ?_
  · cases call <;> first | rfl | exact hcall.elim
  · rw [hc] at hcall
    exact hcall.elim

theorem keeps_tell {call : MLflowCall V} (hcall : call.Plain) :
    (tell server i call).Keeps (Traced i) := (keeps_ask hcall).bind fun _ => .pure ()

omit [DecidableEq ι] in
theorem guarded_of_not {α : Type} {s : TrackerSession ι V} (h : s.tracker.mlflow = false)
    (x : Act (TrackerSession ι V) α) (default : α) : guarded x default s = (.ok default, s) :=
  if_neg (ne_true_of_eq_false h)

omit [DecidableEq ι] in
theorem guarded_of {α : Type} {s : TrackerSession ι V} (h : s.tracker.mlflow = true)
    (x : Act (TrackerSession ι V) α) (default : α) : guarded x default s = x.orElse default s :=
  if_pos h

omit [DecidableEq ι] in
theorem keeps_guarded {α : Type} {P : TrackerSession ι V → Prop} {x : Act (TrackerSession ι V) α}
    (hx : x.Keeps P) (default : α) : (guarded x default).Keeps P := (hx.orElse default).when _ default

theorem keeps_startExperiment (experimentName : String) :
    (startExperiment server i experimentName).Keeps (Traced i) :=
  keeps_guarded ((keeps_ask (by trivial)).bind fun _ =>
    (keeps_tell (by trivial)).bind fun _ => .pure _) _

theorem keeps_logModel (model : V) (modelName artifactPath modelFormat : String) :
    (logModel server i model modelName artifactPath modelFormat).Keeps (Traced i) := by
  refine keeps_guarded ?_ _
  split_ifs
  · exact (keeps_tell (by trivial)).bind fun _ => .pure _
  · exact (keeps_tell (by trivial)).bind fun _ => .pure _
  · exact (keeps_tell (by trivial)).bind fun _ => .pure _

theorem keeps_logParams (params : List (String × V)) :
    (logParams server i params).Keeps (Traced i) :=
  keeps_guarded (.forEach fun _ _ => keeps_tell (by trivial)) _

theorem keeps_logMetrics (metrics : List (String × ℚ)) (step : Option ℤ) :
    (logMetrics server i metrics step).Keeps (Traced i) :=
  keeps_guarded (.forEach fun _ _ => keeps_tell (by trivial)) _

theorem keeps_initMlflow : (initMlflow server i).Keeps (Traced i) :=
  Act.Keeps.orElseOn ((keeps_tell (by trivial)).bind fun _ => (keeps_tell (by trivial)).bind fun _ =>
    fun _ h => ⟨h.lineage, h.runId⟩) _ _

/-- Registering under the id that the tracker knows. -/
theorem traced_registerModel {s : TrackerSession ι V} (h : Traced i s) (modelName : String)
    (tags : List (String × String)) :
    Traced i (registerModel server i (runModelUri s.tracker.currentRunId modelName) modelName tags
      s).2 := by
  unfold registerModel
  cases hm : s.tracker.mlflow with
  | false =>
    rw [guarded_of_not hm]
    exact h
  | true =>
    rw [guarded_of hm, Act.snd_orElse]
    refine Act.bind_keeps (traced_ask rfl h ?_) fun _ =>
      (Act.Keeps.forEach fun _ _ => keeps_tell (by trivial)).bind fun _ => .pure _
    intro modelUri modelName' hc
    injection hc with huri hname
    rw [← huri, ← hname]

end MLflowRegistry

namespace ModelTracker

open MLflowRegistry

variable {server : MLflowServer ι V} {i : ι}

theorem keeps_readRunId : (readRunId server i).Keeps (Traced i) := by
  intro s h
  unfold readRunId ask
  cases hr : server s.events i .activeRunId with
  | error e =>
    refine ⟨lineage_snoc h.lineage fun _ _ hc => (by cases hc), ?_⟩
    show s.tracker.currentRunId = lastRunId i (s.events ++ [_])
    rw [lastRunId_snoc, if_pos ⟨rfl, rfl⟩]
    exact h.runId
  | ok runId =>
    refine ⟨lineage_snoc h.lineage fun _ _ hc => (by cases hc), ?_⟩
    show some runId = lastRunId i (s.events ++ [_])
    rw [lastRunId_snoc, if_pos ⟨rfl, rfl⟩]
    rfl

theorem keeps_startTraining (modelName : String) (params : List (String × V)) :
    (startTraining server i modelName params).Keeps (Traced i) :=
  keeps_guarded ((keeps_tell (by trivial)).bind fun _ => keeps_readRunId.bind fun _ =>
    keeps_logParams params) _

theorem keeps_init (experimentName : String) :
    (init server i experimentName).Keeps (Traced i) :=
  keeps_initMlflow.bind fun _ => (keeps_startExperiment experimentName).bind fun _ _ h =>
    ⟨h.lineage, h.runId⟩

theorem keeps_endTraining (model : V) (modelName : String) (tags : List (String × String)) :
    (endTraining server i model modelName tags).Keeps (Traced i) := by
  refine keeps_guarded ((keeps_logModel model modelName _ _).bind fun _ s h => ?_) _
  show Traced i ((registerModel server i (runModelUri s.tracker.currentRunId modelName) modelName
    tags >>= fun _ => tell server i .endRun) s).2
  exact Act.bind_keeps (traced_registerModel h modelName tags) fun _ => keeps_tell (by trivial)

end ModelTracker

/-! ## What a method adds -/

/-- The call neither starts nor ends a run, nor is it about experiments. -/
def MLflowCall.Inner : MLflowCall V → Prop
  | .startRun _ => False
  | .endRun => False
  | .createExperiment _ => False
  | .setExperiment _ => False
  | _ => True

/-- The call is not about experiments. -/
def MLflowCall.Session : MLflowCall V → Prop
  | .createExperiment _ => False
  | .setExperiment _ => False
  | _ => True

theorem MLflowCall.Inner.session {c : MLflowCall V} (h : c.Inner) : c.Session := by
  cases c <;> trivial

/-- From `s` to `s'` tracker `i` made calls of the kind `K`. -/
def Extends (K : MLflowCall V → Prop) (i : ι) (s s' : TrackerSession ι V) : Prop :=
  ∃ evs, s'.events = s.events ++ evs ∧ ∀ e ∈ evs, e.owner = i ∧ K e.call

omit [DecidableEq ι] in
instance (K : MLflowCall V → Prop) (i : ι) : Std.Refl (Extends K i) :=
  ⟨fun s => ⟨[], (List.append_nil s.events).symm, fun e he => by cases he⟩⟩

omit [DecidableEq ι] in
instance (K : MLflowCall V → Prop) (i : ι) : IsTrans (TrackerSession ι V) (Extends K i) where
  trans := by
    rintro s s' s'' ⟨evs, hevs, hall⟩ ⟨evs', hevs', hall'⟩
    refine ⟨evs ++ evs', by rw [hevs', hevs, List.append_assoc], fun e he => ?_⟩
    rcases List.mem_append.mp he with he | he
    · exact hall e he
    · exact hall' e he

namespace MLflowRegistry

variable {server : MLflowServer ι V} {i : ι} {K : MLflowCall V → Prop}

omit [DecidableEq ι]

theorem events_tell (call : MLflowCall V) (s : TrackerSession ι V) :
    (tell server i call s).2.events = s.events ++ [⟨i, call, server s.events i call⟩] := by
  unfold tell
  rw [Act.snd_bind_pure]
  rfl

theorem within_ask {call : MLflowCall V} (h : K call) :
    (ask server i call).Within (Extends K i) := by
  refine fun s => ⟨[⟨i, call, server s.events i call⟩], rfl, fun e he => ?_⟩
  rw [List.mem_singleton.mp he]
  exact ⟨rfl, h⟩

theorem within_tell {call : MLflowCall V} (h : K call) :
    (tell server i call).Within (Extends K i) := (within_ask h).bind fun _ => .pure ()

theorem within_guarded {α : Type} {x : Act (TrackerSession ι V) α} (hx : x.Within (Extends K i))
    (default : α) : (guarded x default).Within (Extends K i) := (hx.orElse default).when _ default

theorem within_startExperiment {experimentName : String}
    (hcreate : K (.createExperiment experimentName)) (hset : K (.setExperiment experimentName)) :
    (startExperiment server i experimentName).Within (Extends K i) :=
  within_guarded ((within_ask hcreate).bind fun _ => (within_tell hset).bind fun _ => .pure _) _

section Inner

variable (hK : ∀ call : MLflowCall V, call.Inner → K call)

include hK

theorem within_logModel (model : V) (modelName artifactPath modelFormat : String) :
    (logModel server i model modelName artifactPath modelFormat).Within (Extends K i) := by
  refine within_guarded ?_ _
  split_ifs
  · exact (within_tell (hK _ (by trivial))).bind fun _ => .pure _
  · exact (within_tell (hK _ (by trivial))).bind fun _ => .pure _
  · exact (within_tell (hK _ (by trivial))).bind fun _ => .pure _

theorem within_logParams (params : List (String × V)) :
    (logParams server i params).Within (Extends K i) :=
  within_guarded (.forEach fun _ _ => within_tell (hK _ (by trivial))) _

theorem within_logMetrics (metrics : List (String × ℚ)) (step : Option ℤ) :
    (logMetrics server i metrics step).Within (Extends K i) :=
  within_guarded (.forEach fun _ _ => within_tell (hK _ (by trivial))) _

theorem within_registerModel (modelUri modelName : String) (tags : List (String × String)) :
    (registerModel server i modelUri modelName tags).Within (Extends K i) :=
  within_guarded ((within_ask (hK _ (by trivial))).bind fun _ =>
    (Act.Within.forEach fun _ _ => within_tell (hK _ (by trivial))).bind fun _ => .pure _) _

theorem within_initMlflow : (initMlflow server i).Within (Extends K i) :=
  Act.Within.orElseOn ((within_tell (hK _ (by trivial))).bind fun _ =>
    (within_tell (hK _ (by trivial))).bind fun _ s =>
      ⟨[], (List.append_nil s.events).symm, fun e he => by cases he⟩) _ _

theorem within_readRunId : (ModelTracker.readRunId server i).Within (Extends K i) := by
  intro s
  have hask : (ask server i .activeRunId).Within (Extends K i) := within_ask (hK _ (by trivial))
  obtain ⟨evs, hevs, hall⟩ := hask s
  refine ⟨evs, ?_, hall⟩
  rw [← hevs]
  unfold ModelTracker.readRunId
  rcases ask server i .activeRunId s with ⟨_ | _, s'⟩ <;> rfl

end Inner

end MLflowRegistry

namespace ModelTracker

open MLflowRegistry

variable {server : MLflowServer ι V} {i : ι}

omit [DecidableEq ι]

/-- Every method makes calls of its own tracker only. -/
theorem within_startTraining (modelName : String) (params : List (String × V)) :
    (startTraining server i modelName params).Within (Extends MLflowCall.Session i) :=
  within_guarded ((within_tell (by trivial)).bind fun _ => (within_readRunId fun _ h => h.session).bind fun _ =>
    within_logParams (fun _ h => h.session) params) _

theorem within_endTraining (model : V) (modelName : String) (tags : List (String × String)) :
    (endTraining server i model modelName tags).Within (Extends MLflowCall.Session i) :=
  within_guarded ((within_logModel (fun _ h => h.session) model modelName _ _).bind fun _ =>
    Act.Within.bind (fun s => refl_of _ s) fun _ =>
      (within_registerModel (fun _ h => h.session) _ modelName tags).bind fun _ =>
        within_tell (by trivial)) _

theorem within_init (experimentName : String) (K : MLflowCall V → Prop)
    (hK : ∀ call : MLflowCall V, call.Inner → K call) (hcreate : K (.createExperiment experimentName))
    (hset : K (.setExperiment experimentName)) :
    (init server i experimentName).Within (Extends K i) :=
  (within_initMlflow hK).bind fun _ => (within_startExperiment hcreate hset).bind fun _ s =>
    ⟨[], (List.append_nil s.events).symm, fun e he => by cases he⟩

end ModelTracker

/-! ## Runs -/

/-- How many calls of the kind `K` tracker `i` made. -/
def countCalls (K : MLflowCall V → Bool) (i : ι) (events : List (MLflowEvent ι V)) : ℕ :=
  events.countP fun e => decide (e.owner = i) && K e.call

def MLflowCall.isStartRun : MLflowCall V → Bool
  | .startRun _ => true
  | _ => false

def MLflowCall.isEndRun : MLflowCall V → Bool
  | .endRun => true
  | _ => false

theorem MLflowCall.Inner.not_isStartRun {c : MLflowCall V} (h : c.Inner) :
    c.isStartRun = false := by
  cases c <;> first | rfl | exact h.elim

theorem MLflowCall.Inner.not_isEndRun {c : MLflowCall V} (h : c.Inner) : c.isEndRun = false := by
  cases c <;> first | rfl | exact h.elim

theorem Extends.countCalls_eq {J : MLflowCall V → Prop} {K : MLflowCall V → Bool} {i : ι}
    {s s' : TrackerSession ι V} (h : Extends J i s s') (hK : ∀ c, J c → K c = false) (j : ι) :
    countCalls K j s'.events = countCalls K j s.events := by
  obtain ⟨evs, hevs, hall⟩ := h
  have hnone : evs.countP (fun e => decide (e.owner = j) && K e.call) = 0 := by
    rw [List.countP_eq_zero]
    intro e he
    rw [hK e.call (hall e he).2, Bool.and_false]
    exact Bool.false_ne_true
  unfold countCalls
  rw [hevs, List.countP_append, hnone, Nat.add_zero]

theorem Extends.lastRunId_eq {J : MLflowCall V → Prop} {i j : ι} {s s' : TrackerSession ι V}
    (h : Extends J i s s') (hj : j ≠ i) : lastRunId j s'.events = lastRunId j s.events := by
  obtain ⟨evs, hevs, hall⟩ := h
  rw [hevs]
  exact lastRunId_append fun e he hown => hj (hown.symm.trans (hall e he).1)

namespace Trackers

variable {server : MLflowServer ι V}

/-- Every tracker knows the id it read last, and all models were registered right. -/
structure AllTraced (s : Trackers ι V) : Prop where
  lineage : Lineage s.events
  runId : ∀ j, (s.trackers j).bind ModelTracker.currentRunId = lastRunId j s.events

/-- A session of tracker `i` keeps this, if what is kept of it is the id that the session read. -/
theorem AllTraced.session {s : Trackers ι V} (h : s.AllTraced) {K : MLflowCall V → Prop} {i : ι}
    {tracker : ModelTracker} {s' : TrackerSession ι V} (hx : Traced i s')
    (hextends : Extends K i ⟨s.events, tracker⟩ s') {trackers : ι → Option ModelTracker}
    (hi : (trackers i).bind ModelTracker.currentRunId = s'.tracker.currentRunId)
    (hother : ∀ j, j ≠ i → trackers j = s.trackers j) :
    AllTraced (⟨s'.events, trackers⟩ : Trackers ι V) where
  lineage := hx.lineage
  runId j := by
    show (trackers j).bind ModelTracker.currentRunId = lastRunId j s'.events
    by_cases hj : j = i
    · rw [hj, hi, hx.runId]
    · rw [hother j hj, h.runId j]
      exact (hextends.lastRunId_eq hj).symm

theorem AllTraced.method {s : Trackers ι V} (h : s.AllTraced) {i : ι}
    {x : Act (TrackerSession ι V) Unit} (hkeeps : x.Keeps (Traced i))
    (hwithin : x.Within (Extends MLflowCall.Session i)) : (call.method s i x).2.AllTraced := by
  unfold call.method
  cases ht : s.trackers i with
  | none => exact h
  | some tracker =>
    have hi := h.runId i
    rw [ht] at hi
    refine h.session (hkeeps ⟨s.events, tracker⟩ ⟨h.lineage, hi⟩) (hwithin _) ?_ fun j hj => ?_
    · rw [Function.update_self]
      rfl
    · rw [Function.update_of_ne hj]

omit [DecidableEq ι] in
/-- A tracker is made without a run. -/
theorem keeps_currentRunId (i : ι) (experimentName : String) :
    (ModelTracker.init server i experimentName).Keeps (fun s => s.tracker.currentRunId = none) := by
  have htell : ∀ call, (MLflowRegistry.tell server i call).Keeps
      (fun s => s.tracker.currentRunId = none) := fun _ => .bind (fun _ hs => hs) fun _ => .pure _
  refine (Act.Keeps.orElseOn ((htell _).bind fun _ => (htell _).bind fun _ _ hs => hs) _ _).bind
    fun _ => (MLflowRegistry.keeps_guarded ?_ _).bind fun _ _ hs => hs
  exact Act.Keeps.bind (fun _ hs => hs) fun _ => (htell _).bind fun _ => .pure _

theorem AllTraced.call {s : Trackers ι V} (h : s.AllTraced) (i : ι) (op : TrackerOp V) :
    (s.call server i op).2.AllTraced := by
  cases op with
  | startTraining modelName params =>
    exact h.method (ModelTracker.keeps_startTraining modelName params)
      (ModelTracker.within_startTraining modelName params)
  | logTrainingMetrics epoch metrics =>
    exact h.method (MLflowRegistry.keeps_logMetrics metrics (some epoch))
      (MLflowRegistry.within_logMetrics (fun _ h => h.session) metrics (some epoch))
  | endTraining model modelName tags =>
    exact h.method (ModelTracker.keeps_endTraining model modelName tags)
      (ModelTracker.within_endTraining model modelName tags)
  | new experimentName =>
    unfold Trackers.call
    dsimp only
    cases ht : s.trackers i with
    | some tracker => exact h
    | none =>
      have hi := h.runId i
      rw [ht] at hi
      have hx : Traced i (ModelTracker.init server i experimentName
        ⟨s.events, ModelTracker.fresh⟩).2 :=
        ModelTracker.keeps_init experimentName _ ⟨h.lineage, hi⟩
      have hold : (ModelTracker.init server i experimentName
          ⟨s.events, ModelTracker.fresh⟩).2.tracker.currentRunId = none :=
        keeps_currentRunId i experimentName _ rfl
      have hother : Extends (fun _ => True) i ⟨s.events, ModelTracker.fresh⟩
          (ModelTracker.init server i experimentName ⟨s.events, ModelTracker.fresh⟩).2 :=
        ModelTracker.within_init experimentName _ (fun _ _ => trivial) trivial trivial _
      rcases hr : ModelTracker.init server i experimentName ⟨s.events, ModelTracker.fresh⟩ with
        ⟨e | _, s'⟩ <;> rw [hr] at hx hold hother
      · refine h.session hx hother ?_ fun _ _ => rfl
        rw [ht]
        exact hold.symm
      · refine h.session hx hother ?_ fun j hj => Function.update_of_ne hj _ _
        rw [Function.update_self]
        rfl

/-- **Lineage.** However the calls of the trackers follow each other and whatever the server answers,
each model is registered under the run whose id its own tracker read last. -/
theorem lineage_run (server : MLflowServer ι V) (tr : List (ι × TrackerOp V)) :
    Lineage (run (step server) init tr).events := by
  have hrun : (run (step server) init tr).AllTraced := by
    refine run_invariant ⟨fun pre e hpre => ?_, fun _ => rfl⟩ (fun s hs a => hs.call a.1 a.2) tr
    exact absurd (List.prefix_nil.mp hpre) (by simp)
  exact hrun.lineage

end Trackers

end PyStreamAI
