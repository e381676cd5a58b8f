import Mathlib.Data.Finset.Card
import Mathlib.Data.List.Dedup
import PyStreamAI.EndpointDispatch
import PyStreamAI.ServeNames

/-!
# What a served model answers

A platform keeps its endpoints by name, and a client also has those that `serve` returned to it.
What all of them answer is what a list of the models answers in which every call of `serve` is one
more entry and a name means its last entry (`served_refines`). So an endpoint that was replaced goes
on for those who have it, and stopping an endpoint does not stop it.
-/

open Py Machine

namespace PyStreamAI

namespace Dispatch

/-- A call of `serve`, with what `onnxruntime` makes of files at that time. -/
structure ServeCall (F : Type) where
  model : Model F
  repr : String
  inferenceSession : Path → Except Error F
  modelId : Option String := none
  replicas : ℤ := 1
  gpu : Option String := none

/-- The endpoint made for the call under the name it gets, or what its making raises. -/
def ServeCall.endpoint {F : Type} (c : ServeCall F) (modelId : String) : Except Error (Endpoint F) :=
  Endpoint.new c.inferenceSession modelId c.replicas c.gpu c.model c.repr

/-- The endpoint a client means: the one deployed under a name, or the one it got from a call of
`serve`, these in order. -/
inductive Target
  | name (name : String)
  | handle (k : ℕ)

/-- What a client calls. -/
inductive ClientCall (Fs F Input : Type) [FileSystem Fs]
  | serve (c : ServeCall F)
  /-- Train with a script. -/
  | script (name repr : String) (program : Program Fs) (args : TrainArgs)
  | stop (target : Target)
  | predict (target : Target) (data : Input)

/-- What a client gets; `nothing` where it has no endpoint to call. -/
inductive ClientReply (Output : Type)
  | raised (e : Exn)
  | endpoint (k : ℕ)
  | done
  | prediction (p : Prediction Output)
  | nothing

def ClientReply.ofPrediction {Output : Type} :
    Except Error (Prediction Output) → ClientReply Output
  | .ok p => .prediction p
  | .error e => .raised (.exception e)

/-- `self.list_deployments()[name]` for a name that is not there. -/
def ClientReply.missing {Output : Type} (name : String) : ClientReply Output :=
  .raised (.exception ⟨"KeyError", pyRepr name⟩)

section Calls

variable {Fs M F Input Output : Type} [FileSystem Fs]
variable (answers : Answers F Input Output)

/-! ## The platform -/

/-- A platform whose deployments refer to the endpoints that were made, and the calls of model
functions so far. -/
structure ServedModels (Fs M F Input : Type) where
  session : Session Fs M ℕ
  endpoints : List (Endpoint F) := []
  trace : List (F × Input) := []

namespace ServedModels

/-- The endpoint a client means, with its number. -/
def find (s : ServedModels Fs M F Input) : Target → Except (ClientReply Output) (ℕ × Endpoint F)
  | .name name =>
    match s.session.deployments.get? name with
    | none => .error (.missing name)
    | some deployment => made deployment.model
  | .handle k => made k
where
  made (k : ℕ) : Except (ClientReply Output) (ℕ × Endpoint F) :=
    match s.endpoints[k]? with
    | none => .error .nothing
    | some endpoint => .ok (k, endpoint)

/-- Serve a model. -/
def serve (s : ServedModels Fs M F Input) (c : ServeCall F) :
    ClientReply Output × ServedModels Fs M F Input :=
  let made := c.endpoint (s.session.modelIdFor c.modelId)
  let (r, session) := s.session.serve
    { model := (made.map fun _ => s.endpoints.length).mapError .exception
      replicas := c.replicas, gpu := c.gpu, modelId := c.modelId }
  (match r with
    | .ok deployment => .endpoint deployment.model
    | .error e => .raised e,
  { s with session, endpoints := s.endpoints ++ made.toOption.toList })

/-- Stop the endpoint. -/
def stop (s : ServedModels Fs M F Input) (target : Target) :
    ClientReply Output × ServedModels Fs M F Input :=
  match s.find target with
  | .error r => (r, s)
  | .ok (k, endpoint) =>
    (.done, { s with endpoints := s.endpoints.set k { endpoint with status := .stopped } })

/-- Run real inference on an endpoint. -/
def predict (s : ServedModels Fs M F Input) (target : Target) (data : Input) :
    ClientReply Output × ServedModels Fs M F Input :=
  match s.find target with
  | .error r => (r, s)
  | .ok (_, endpoint) =>
    let (r, trace) := endpoint.predict answers s.trace data
    (.ofPrediction r, { s with trace })

/-- What a client gets, and the platform after its call. Of a job it looks at nothing here. -/
def call (s : ServedModels Fs M F Input) :
    ClientCall Fs F Input → ClientReply Output × ServedModels Fs M F Input
  | .serve c => s.serve c
  | .script name repr program args =>
    (.done, { s with session := (s.session.trainScript name repr program args).2 })
  | .stop target => s.stop target
  | .predict target data => s.predict answers target data

def step (s : ServedModels Fs M F Input) (c : ClientCall Fs F Input) : ServedModels Fs M F Input :=
  (s.call answers c).2

def reply (s : ServedModels Fs M F Input) (c : ClientCall Fs F Input) : List (ClientReply Output) :=
  [(s.call answers c).1]

def init (files : Fs) : ServedModels Fs M F Input := { session := .init files }

end ServedModels

/-! ## The list of models -/

/-- The models that were served, and the calls of their functions so far. -/
structure Registry (F Input : Type) where
  served : List (Endpoint F) := []
  trace : List (F × Input) := []

namespace Registry

/-- The names that were served. -/
def names (r : Registry F Input) : List String := (r.served.map Endpoint.modelId).dedup

/-- The last model that was served under a name. -/
def lastNamed (r : Registry F Input) (name : String) : Option (Endpoint F) :=
  (r.served.filter fun e => e.modelId = name).getLast?

def find (r : Registry F Input) : Target → Except (ClientReply Output) (Endpoint F)
  | .name name => (r.lastNamed name).elim (.error (.missing name)) .ok
  | .handle k => r.served[k]?.elim (.error .nothing) .ok

def serve (r : Registry F Input) (c : ServeCall F) : ClientReply Output × Registry F Input :=
  match c.endpoint (c.modelId.getD (Session.defaultModelId r.names.length)) with
  | .error e => (.raised (.exception e), r)
  | .ok endpoint => (.endpoint r.served.length, { r with served := r.served ++ [endpoint] })

def stop (r : Registry F Input) (target : Target) : ClientReply Output × Registry F Input :=
  match r.find target with
  | .error x => (x, r)
  | .ok _ => (.done, r)

def predict (r : Registry F Input) (target : Target) (data : Input) :
    ClientReply Output × Registry F Input :=
  match r.find target with
  | .error x => (x, r)
  | .ok endpoint =>
    let (x, trace) := endpoint.predict answers r.trace data
    (.ofPrediction x, { r with trace })

/-- What a client gets, and the list after its call. -/
def call (r : Registry F Input) : ClientCall Fs F Input → ClientReply Output × Registry F Input
  | .serve c => r.serve c
  | .script _ _ _ _ => (.done, r)
  | .stop target => r.stop target
  | .predict target data => r.predict answers target data

def step (r : Registry F Input) (c : ClientCall Fs F Input) : Registry F Input :=
  (r.call answers c).2

def reply (r : Registry F Input) (c : ClientCall Fs F Input) : List (ClientReply Output) :=
  [(r.call answers c).1]

end Registry

/-! ## The platform answers as the list does -/

/-- The endpoint before anyone stopped it. -/
def Endpoint.started (e : Endpoint F) : Endpoint F := { e with status := .running }

/-- The calls that do more than train or stop. -/
def ClientCall.works : ClientCall Fs F Input → Bool
  | .serve _ => true
  | .script _ _ _ _ => false
  | .stop _ => false
  | .predict _ _ => true

/-- The platform holds the list. -/
structure Holds (s : ServedModels Fs M F Input) (r : Registry F Input) : Prop where
  trace : s.trace = r.trace
  endpoints : s.endpoints.map Endpoint.started = r.served
  deployed : ∀ name, r.lastNamed name =
    (s.session.deployments.get? name).bind fun deployment => r.served[deployment.model]?
  recorded : ∀ name deployment, s.session.deployments.get? name = some deployment →
    deployment.modelId = name ∧ ∃ e, r.served[deployment.model]? = some e ∧
      e.replicas = deployment.replicas ∧ e.gpu = deployment.gpu
  len : s.session.deployments.len = r.names.length

section Simulation

omit [FileSystem Fs]

variable {s : ServedModels Fs M F Input} {r : Registry F Input}

/-- What an endpoint that was made is made of. -/
theorem ServeCall.endpoint_eq_ok {c : ServeCall F} {modelId : String} {e : Endpoint F}
    (h : c.endpoint modelId = .ok e) :
    e.modelId = modelId ∧ e.replicas = c.replicas ∧ e.gpu = c.gpu ∧ e.started = e := by
  unfold ServeCall.endpoint Endpoint.new at h
  split at h
  · cases h
  · split_ifs at h
    obtain rfl := Except.ok.inj h
    exact ⟨rfl, rfl, rfl, rfl⟩

theorem Registry.lastNamed_isSome {name : String} :
    (r.lastNamed name).isSome ↔ name ∈ r.served.map Endpoint.modelId := by
  unfold Registry.lastNamed
  rw [List.getLast?_isSome, Ne, List.filter_eq_nil_iff, List.mem_map]
  simp

theorem Registry.modelId_of_lastNamed {name : String} {e : Endpoint F}
    (h : r.lastNamed name = some e) : e.modelId = name :=
  of_decide_eq_true (List.mem_filter.mp (List.mem_of_getLast? h)).2

theorem Registry.lastNamed_snoc (e : Endpoint F) (name : String) :
    ({ r with served := r.served ++ [e] } : Registry F Input).lastNamed name =
      if e.modelId = name then some e else r.lastNamed name := by
  unfold Registry.lastNamed
  rw [List.filter_append, List.filter_singleton]
  split_ifs <;> simp_all

/-- A name counts once. -/
theorem Registry.names_snoc (e : Endpoint F) :
    ({ r with served := r.served ++ [e] } : Registry F Input).names.length =
      if e.modelId ∈ r.served.map Endpoint.modelId then r.names.length else r.names.length + 1 := by
  have hset : ((r.served ++ [e]).map Endpoint.modelId).toFinset =
      insert e.modelId (r.served.map Endpoint.modelId).toFinset := by
    ext name
    simp
  unfold Registry.names
  rw [← List.card_toFinset, ← List.card_toFinset, hset, Finset.card_insert_eq_ite]
  exact if_congr List.mem_toFinset rfl rfl

namespace Holds

theorem mem_keys (h : Holds s r) {name : String} :
    name ∈ s.session.deployments.keys ↔ name ∈ r.served.map Endpoint.modelId := by
  rw [← Registry.lastNamed_isSome, h.deployed, Dict.mem_keys_iff, Option.isSome_iff_exists]
  constructor
  · rintro ⟨deployment, hget⟩
    obtain ⟨-, e, he, -⟩ := h.recorded name deployment hget
    exact ⟨e, by rw [hget, Option.bind_some, he]⟩
  · rintro ⟨e, he⟩
    obtain ⟨deployment, hget, -⟩ := Option.bind_eq_some_iff.mp he
    exact ⟨deployment, hget⟩

theorem made (h : Holds s r) (k : ℕ) :
    (ServedModels.find.made s k : Except (ClientReply Output) _).map (fun p => p.2.started) =
      r.served[k]?.elim (.error .nothing) .ok := by
  unfold ServedModels.find.made
  rw [← h.endpoints, List.getElem?_map]
  cases s.endpoints[k]? <;> rfl

/-- Both find the same endpoint. -/
theorem find (h : Holds s r) (target : Target) :
    (s.find target : Except (ClientReply Output) _).map (fun p => p.2.started) =
      r.find target := by
  cases target with
  | handle k => exact h.made k
  | name name =>
    unfold ServedModels.find Registry.find
    dsimp only
    rw [h.deployed]
    cases hget : s.session.deployments.get? name with
    | none => rfl
    | some deployment =>
      obtain ⟨-, e, he, -⟩ := h.recorded name deployment hget
      rw [Option.bind_some]
      refine (h.made deployment.model).trans ?_
      rw [he]
      rfl

theorem find_of_ok (h : Holds s r) {target : Target} {p : ℕ × Endpoint F}
    (hfind : (s.find target : Except (ClientReply Output) _) = .ok p) :
    (r.find target : Except (ClientReply Output) _) = .ok p.2.started ∧
      s.endpoints[p.1]? = some p.2 := by
  have hmade : ∀ k, (ServedModels.find.made s k : Except (ClientReply Output) _) = .ok p →
      s.endpoints[p.1]? = some p.2 := by
    intro k hk
    unfold ServedModels.find.made at hk
    split at hk
    · cases hk
    · next hget =>
      obtain rfl := Except.ok.inj hk
      exact hget
  refine ⟨by rw [← h.find, hfind]; rfl, ?_⟩
  cases target with
  | handle k => exact hmade k hfind
  | name name =>
    unfold ServedModels.find at hfind
    dsimp only at hfind
    split at hfind
    · cases hfind
    · exact hmade _ hfind

/-- A model that is served is one more entry. -/
theorem serve (h : Holds s r) (c : ServeCall F) :
    (s.serve c : ClientReply Output × _).1 = (r.serve c).1 ∧
      Holds (s.serve c : ClientReply Output × _).2 (r.serve c : ClientReply Output × _).2 := by
  have hname : s.session.modelIdFor c.modelId =
      c.modelId.getD (Session.defaultModelId r.names.length) := by
    rw [← h.len]
    rfl
  have hcount : s.endpoints.length = r.served.length := by
    rw [← h.endpoints, List.length_map]
  unfold ServedModels.serve Registry.serve Session.serve
  rw [← hname]
  cases hmade : c.endpoint (s.session.modelIdFor c.modelId) with
  | error e => exact ⟨rfl, h.trace, by simpa [Except.toOption] using h.endpoints, h.deployed,
      h.recorded, h.len⟩
  | ok endpoint =>
    obtain ⟨hid, hreplicas, hgpu, hstarted⟩ := ServeCall.endpoint_eq_ok hmade
    refine ⟨congrArg _ hcount, ?_⟩
    dsimp only [Except.map, Except.mapError, Except.toOption, Option.toList]
    have hlast : (r.served ++ [endpoint])[s.endpoints.length]? = some endpoint := by
      rw [hcount]
      exact List.getElem?_concat_length
    have hold {k : ℕ} {e : Endpoint F} (he : r.served[k]? = some e) :
        (r.served ++ [endpoint])[k]? = some e := by
      rw [List.getElem?_append_left (List.getElem?_eq_some_iff.mp he).1, he]
    constructor
    · exact h.trace
    · rw [List.map_append, h.endpoints, List.map_singleton, hstarted]
    · intro name'
      show _ = ((s.session.deployments.set (s.session.modelIdFor c.modelId) _).get? name').bind _
      rw [Registry.lastNamed_snoc, Dict.get?_set, hid]
      by_cases hn : name' = s.session.modelIdFor c.modelId
      · rw [if_pos hn.symm, if_pos hn]
        exact hlast.symm
      · rw [if_neg (Ne.symm hn), if_neg hn, h.deployed]
        cases hget : s.session.deployments.get? name' with
        | none => rfl
        | some deployment =>
          obtain ⟨-, e, he, -⟩ := h.recorded name' deployment hget
          rw [Option.bind_some, Option.bind_some, he, hold he]
    · intro name' deployment hget
      have hset : (s.session.deployments.set (s.session.modelIdFor c.modelId) _).get? name' =
        some deployment := hget
      rw [Dict.get?_set] at hset
      split_ifs at hset with hn
      · obtain rfl := Option.some.inj hset
        exact ⟨hn.symm, endpoint, hlast, hreplicas, hgpu⟩
      · obtain ⟨hname', e, he, hfields⟩ := h.recorded name' deployment hset
        exact ⟨hname', e, hold he, hfields⟩
    · show (s.session.deployments.set (s.session.modelIdFor c.modelId) _).len = _
      rw [Dict.len_set, Registry.names_snoc, hid, h.len]
      exact if_congr h.mem_keys rfl rfl

/-- Stopping leaves the list as it is. -/
theorem stop (h : Holds s r) (target : Target) :
    (s.stop target : ClientReply Output × _).1 = (r.stop target).1 ∧
      Holds (s.stop target : ClientReply Output × _).2 (r.stop target : ClientReply Output × _).2 := by
  unfold ServedModels.stop Registry.stop
  cases hfind : (s.find target : Except (ClientReply Output) _) with
  | error x =>
    rw [← h.find, hfind]
    exact ⟨rfl, h⟩
  | ok p =>
    obtain ⟨hr, hget⟩ := h.find_of_ok hfind
    rw [hr]
    refine ⟨rfl, { h with endpoints := ?_ }⟩
    obtain ⟨hlt, hp⟩ := List.getElem?_eq_some_iff.mp hget
    have hlt' : p.1 < (s.endpoints.map Endpoint.started).length := by rwa [List.length_map]
    have hsame : Endpoint.started { p.2 with status := .stopped } =
        (s.endpoints.map Endpoint.started)[p.1] := by
      rw [List.getElem_map, hp]
      rfl
    rw [List.map_set, hsame, List.set_getElem_self]
    exact h.endpoints

/-- A prediction makes the call of the model in the list. -/
theorem predict (answers : Answers F Input Output) (h : Holds s r) (target : Target) (data : Input) :
    (s.predict answers target data).1 = (r.predict answers target data).1 ∧
      Holds (s.predict answers target data).2 (r.predict answers target data).2 := by
  unfold ServedModels.predict Registry.predict
  cases hfind : (s.find target : Except (ClientReply Output) _) with
  | error x =>
    rw [← h.find, hfind]
    exact ⟨rfl, h⟩
  | ok p =>
    rw [(h.find_of_ok hfind).1, h.trace]
    exact ⟨rfl, { h with trace := rfl }⟩

/-- A deployment is what was served last under its name. -/
theorem records (h : Holds s r) (name : String) :
    (s.session.deployments.get? name).map (fun d => (d.modelId, d.replicas, d.gpu)) =
      (r.lastNamed name).map fun e => (e.modelId, e.replicas, e.gpu) := by
  cases hget : s.session.deployments.get? name with
  | none =>
    rw [h.deployed, hget]
    rfl
  | some deployment =>
    obtain ⟨hid, e, he, hreplicas, hgpu⟩ := h.recorded name deployment hget
    have hlast : r.lastNamed name = some e := by
      rw [h.deployed, hget]
      exact he
    rw [hlast, Option.map_some, Option.map_some, hid, Registry.modelId_of_lastNamed hlast,
      hreplicas, hgpu]

end Holds

theorem holds_init (files : Fs) :
    Holds (.init files : ServedModels Fs M F Input) ({} : Registry F Input) where
  trace := rfl
  endpoints := rfl
  deployed _ := rfl
  recorded _ _ h := by cases h
  len := rfl

end Simulation

/-- Training with a script deploys nothing. -/
theorem deployments_trainScript {D : Type} (s : Session Fs M D) (name repr : String)
    (program : Program Fs) (args : TrainArgs) :
    (s.trainScript name repr program args).2.platform.deployments = s.platform.deployments := by
  unfold Session.trainScript
  dsimp only
  split_ifs
  · split
    · rfl
    · split <;> rfl
  · rfl

theorem Holds.call {s : ServedModels Fs M F Input} {r : Registry F Input} (h : Holds s r)
    (c : ClientCall Fs F Input) :
    (s.call answers c).1 = (r.call answers c).1 ∧ Holds (s.step answers c) (r.step answers c) := by
  cases c with
  | serve c => exact h.serve c
  | stop target => exact h.stop target
  | predict target data => exact h.predict answers target data
  | script name repr program args =>
    have hsame := deployments_trainScript s.session name repr program args
    refine ⟨rfl, h.trace, h.endpoints, fun name' => ?_, fun name' deployment hget => ?_, ?_⟩
    · exact (h.deployed name').trans (by rw [Session.deployments, ← hsame]; rfl)
    · exact h.recorded name' deployment (by rwa [Session.deployments, ← hsame])
    · exact (congrArg Dict.len hsame).trans h.len

/-- A step of the list that neither serves nor predicts leaves it as it is. -/
theorem Registry.step_of_idle (r : Registry F Input) (c : ClientCall Fs F Input)
    (h : c.works = false) : r.step answers c = r := by
  cases c with
  | serve c => cases h
  | predict target data => cases h
  | script name repr program args => rfl
  | stop target =>
    show (r.stop target : ClientReply Output × _).2 = r
    unfold Registry.stop
    split <;> rfl

/-- **Serving.** Whatever a client serves, stops, predicts and trains with scripts, the platform
answers what the list answers and makes the same calls of model functions; its deployments are the
names that were served, each with what was served last under it. Without the calls that train or
stop, the others are answered as before. -/
theorem served_refines (files : Fs) (calls : List (ClientCall Fs F Input)) :
    let start : ServedModels Fs M F Input := .init files
    let s := run (ServedModels.step answers) start calls
    let r : Registry F Input := run (Registry.step answers) {} calls
    log (ServedModels.step answers) (ServedModels.reply answers) start calls =
      log (Registry.step answers) (Registry.reply answers) {} calls ∧
    s.trace = r.trace ∧
    (∀ name, (s.session.deployments.get? name).map (fun d => (d.modelId, d.replicas, d.gpu)) =
      (r.lastNamed name).map fun e => (e.modelId, e.replicas, e.gpu)) ∧
    s.session.deployments.len = r.names.length ∧
    log (ServedModels.step answers) (fun s c => if c.works then s.reply answers c else []) start
        calls =
      log (ServedModels.step answers) (ServedModels.reply answers) start
        (calls.filter ClientCall.works) := by
  intro start s r
  have hsim (calls : List (ClientCall Fs F Input)) :
      log (ServedModels.step answers) (ServedModels.reply answers) start calls =
          log (Registry.step answers) (Registry.reply answers) {} calls ∧
        Holds (run (ServedModels.step answers) start calls)
          (run (Registry.step answers) {} calls) :=
    simulation (holds_init files)
      (fun s r h c => ⟨congrArg (fun x => [x]) (h.call answers c).1, (h.call answers c).2⟩) calls
  have hworks : log (ServedModels.step answers)
        (fun s c => if c.works then s.reply answers c else []) start calls =
      log (Registry.step answers) (fun r c => if c.works then r.reply answers c else []) {} calls :=
    (simulation (holds_init files) (fun s r h c => by
      refine ⟨?_, (h.call answers c).2⟩
      exact congrArg (fun x => if c.works then [x] else []) (h.call answers c).1) calls).1
  obtain ⟨hlog, h⟩ := hsim calls
  refine ⟨hlog, h.trace, h.records, h.len, ?_⟩
  rw [hworks, log_filter (Registry.step_of_idle answers)]
  exact (hsim _).1.symm

/-- A model that was replaced answers who has it, a model that was stopped answers all. -/
example : (run (ServedModels.step fun _ f (x : ℕ) => .ok (f, x))
    (.init ⟨[], []⟩ : ServedModels Disk Unit String ℕ)
    [.serve { model := .object none (some "f"), repr := "f", modelId := some "m",
               inferenceSession := fun _ => .ok "" },
      .serve { model := .object none (some "g"), repr := "g", modelId := some "m",
               inferenceSession := fun _ => .ok "" },
      .stop (.name "m"), .predict (.name "m") 1, .predict (.handle 0) 2]).trace =
    [("g", 1), ("f", 2)] := by decide +kernel

end Calls

end Dispatch

end PyStreamAI
