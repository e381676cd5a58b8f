import PyStreamAI.ModelTracker

/-!
# Sessions of trackers

As long as the server raises nothing but `Exception`s, no method of a tracker raises but its
constructor, when it cannot set `mlflow` up; with `mlflow`, each training that is started asks to
start one run and each that is ended asks to end one, and without it nothing is asked
(`sessions_run`). On a server that refuses to create an experiment twice, an experiment is selected by
the tracker that created it and by no other (`experiment_selected_once`).
-/

open Py Machine

namespace PyStreamAI

variable {ι V : Type} [DecidableEq ι]

/-- From `s` to `s'` tracker `i` starts and ends runs so many times, and no other tracker does. -/
def Counts (i : ι) (starts ends : ℕ) (s s' : TrackerSession ι V) : Prop :=
  ∀ j, countCalls MLflowCall.isStartRun j s'.events =
      countCalls MLflowCall.isStartRun j s.events + (if i = j then starts else 0) ∧
    countCalls MLflowCall.isEndRun j s'.events =
      countCalls MLflowCall.isEndRun j s.events + if i = j then ends else 0

theorem Extends.counts_of {K : MLflowCall V → Prop} {i : ι} {s s' : TrackerSession ι V}
    (h : Extends K i s s') (hK : ∀ c, K c → c.isStartRun = false ∧ c.isEndRun = false) :
    Counts i 0 0 s s' := by
  intro j
  rw [h.countCalls_eq fun c hc => (hK c hc).1, h.countCalls_eq fun c hc => (hK c hc).2]
  simp

theorem Extends.counts {i : ι} {s s' : TrackerSession ι V}
    (h : Extends MLflowCall.Inner i s s') : Counts i 0 0 s s' :=
  h.counts_of fun _ hc => ⟨hc.not_isStartRun, hc.not_isEndRun⟩

theorem Counts.trans {i : ι} {a b c d : ℕ} {s s' s'' : TrackerSession ι V}
    (h : Counts i a b s s') (h' : Counts i c d s' s'') : Counts i (a + c) (b + d) s s'' := by
  intro j
  rw [(h' j).1, (h' j).2, (h j).1, (h j).2]
  split_ifs
  · omega
  · omega

/-- The method returns, having started and ended so many runs where there is `mlflow`, and having
asked nothing where there is none. -/
structure Completes (i : ι) (starts ends : ℕ) (x : Act (TrackerSession ι V) Unit) : Prop where
  ok : ∀ s, (x s).1 = .ok ()
  counts : ∀ s, s.tracker.mlflow = true → Counts i starts ends s (x s).2
  silent : ∀ s, s.tracker.mlflow = false → (x s).2 = s

/-- A guarded act returns. -/
theorem Completes.guarded {i : ι} {starts ends : ℕ} {x : Act (TrackerSession ι V) Unit}
    (hmild : x.Mild) (hcounts : ∀ s, s.tracker.mlflow = true → Counts i starts ends s (x s).2) :
    Completes i starts ends (MLflowRegistry.guarded x ()) where
  ok s := by
    obtain ⟨_, ha⟩ := Act.ok_when (Act.Mild.orElse hmild ()) (·.tracker.mlflow) () s
    exact ha
  counts s hm := by
    rw [MLflowRegistry.guarded_of hm, Act.snd_orElse]
    exact hcounts s hm
  silent s hm := by rw [MLflowRegistry.guarded_of_not hm]

namespace MLflowRegistry

omit [DecidableEq ι]

variable {server : MLflowServer ι V} {i : ι} {call : MLflowCall V} {s : TrackerSession ι V}

end MLflowRegistry

section Mild

variable {server : MLflowServer ι V}
  (hserver : ∀ events i call e, server events i call ≠ .error (.base e)) (i : ι)

include hserver

open MLflowRegistry

end Mild

namespace Trackers

variable {server : MLflowServer ι V}
  (hserver : ∀ events i call e, server events i call ≠ .error (.base e))

end Trackers

/-! ## Experiments -/

section Experiments

/-- The event is the creation of the experiment. -/
def MLflowEvent.creates (name : String) (e : MLflowEvent ι V) : Bool :=
  match e.call with
  | .createExperiment n => decide (n = name) && e.reply.isOk
  | _ => false

/-- The event is the selection of the experiment. -/
def MLflowEvent.selects (name : String) (e : MLflowEvent ι V) : Bool :=
  match e.call with
  | .setExperiment n => decide (n = name)
  | _ => false

/-- How often an experiment was created. -/
def created (name : String) (events : List (MLflowEvent ι V)) : ℕ := events.countP (·.creates name)

/-- How often tracker `i` created an experiment. -/
def createdBy (name : String) (i : ι) (events : List (MLflowEvent ι V)) : ℕ :=
  events.countP fun e => decide (e.owner = i) && e.creates name

/-- How often tracker `i` selected an experiment. -/
def selectedBy (name : String) (i : ι) (events : List (MLflowEvent ι V)) : ℕ :=
  events.countP fun e => decide (e.owner = i) && e.selects name

/-- What two trackers created was created. -/
theorem createdBy_add_le {i j : ι} (hne : i ≠ j) (name : String) (events : List (MLflowEvent ι V)) :
    createdBy name i events + createdBy name j events ≤ created name events := by
  unfold createdBy created
  induction events with
  | nil => exact le_rfl
  | cons e events ih =>
    simp only [List.countP_cons, Bool.and_eq_true, decide_eq_true_eq]
    cases hc : e.creates name with
    | false => simpa using ih
    | true =>
      by_cases hi : e.owner = i
      · simp only [hi, hne, and_true, if_true, if_false]
        omega
      · simp only [hi, and_true, if_true, if_false]
        split_ifs
        · omega
        · omega

/-- An experiment is created once at most, and who created it has selected it. -/
structure SelectedOnce (events : List (MLflowEvent ι V)) : Prop where
  created : ∀ name, created name events ≤ 1
  selected : ∀ name i, selectedBy name i events = createdBy name i events

theorem SelectedOnce.append_of_session {events evs : List (MLflowEvent ι V)} (h : SelectedOnce events)
    (hall : ∀ e ∈ evs, e.call.Session) : SelectedOnce (events ++ evs) := by
  have hcreates : ∀ name, ∀ e ∈ evs, e.creates name = false := by
    intro name e he
    have hsession := hall e he
    unfold MLflowEvent.creates
    cases hc : e.call <;> first | rfl | (rw [hc] at hsession; exact hsession.elim)
  have hselects : ∀ name, ∀ e ∈ evs, e.selects name = false := by
    intro name e he
    have hsession := hall e he
    unfold MLflowEvent.selects
    cases hc : e.call <;> first | rfl | (rw [hc] at hsession; exact hsession.elim)
  have hnone : ∀ {p : MLflowEvent ι V → Bool}, (∀ e ∈ evs, p e = false) →
      (events ++ evs).countP p = events.countP p := by
    intro p hp
    rw [List.countP_append, List.countP_eq_zero.mpr fun e he => ne_true_of_eq_false (hp e he),
      Nat.add_zero]
  constructor
  · intro name
    unfold PyStreamAI.created
    rw [hnone (hcreates name)]
    exact h.created name
  · intro name i
    unfold selectedBy createdBy
    rw [hnone fun e he => by rw [hselects name e he, Bool.and_false],
      hnone fun e he => by rw [hcreates name e he, Bool.and_false]]
    exact h.selected name i

/-- A refused creation leaves the experiment to who made it. -/
theorem SelectedOnce.refused {events : List (MLflowEvent ι V)} (h : SelectedOnce events) (i : ι)
    (experimentName : String) (e : Exn) :
    SelectedOnce (events ++ [⟨i, .createExperiment experimentName, .error e⟩]) := by
  constructor
  · intro name
    simpa [PyStreamAI.created, MLflowEvent.creates, Except.isOk, Except.toBool] using h.created name
  · intro name j
    simpa [createdBy, selectedBy, MLflowEvent.creates, MLflowEvent.selects, Except.isOk,
      Except.toBool] using h.selected name j

theorem SelectedOnce.selects {events : List (MLflowEvent ι V)} (h : SelectedOnce events) {i : ι}
    {experimentName : String} (hfresh : PyStreamAI.created experimentName events = 0)
    (experimentId : String) (reply : Except Exn String) :
    SelectedOnce (events ++ [⟨i, .createExperiment experimentName, .ok experimentId⟩] ++
      [⟨i, .setExperiment experimentName, reply⟩]) := by
  constructor
  · intro name
    have hname := h.created name
    by_cases he : experimentName = name
    · subst he
      unfold PyStreamAI.created at hfresh ⊢
      rw [List.countP_append, List.countP_append, hfresh]
      simp [MLflowEvent.creates, Except.isOk, Except.toBool]
    · simpa [PyStreamAI.created, MLflowEvent.creates, he] using hname
  · intro name j
    have hname := h.selected name j
    by_cases he : experimentName = name
    · subst he
      by_cases hi : i = j
      · simpa [createdBy, selectedBy, MLflowEvent.creates, MLflowEvent.selects, Except.isOk,
          Except.toBool, hi] using hname
      · simpa [createdBy, selectedBy, MLflowEvent.creates, MLflowEvent.selects, hi] using hname
    · simpa [createdBy, selectedBy, MLflowEvent.creates, MLflowEvent.selects, he] using hname

variable {server : MLflowServer ι V}

theorem SelectedOnce.startExperiment {s : TrackerSession ι V} (h : SelectedOnce s.events)
    (hexists : ∀ events i name, 0 < PyStreamAI.created name events →
      ∃ e, server events i (.createExperiment name) = .error (.exception e))
    (i : ι) (experimentName : String) :
    SelectedOnce (MLflowRegistry.startExperiment server i experimentName s).2.events := by
  unfold MLflowRegistry.startExperiment
  cases hm : s.tracker.mlflow with
  | false =>
    rw [MLflowRegistry.guarded_of_not hm]
    exact h
  | true =>
    rw [MLflowRegistry.guarded_of hm, Act.snd_orElse]
    cases hr : server s.events i (.createExperiment experimentName) with
    | error e =>
      rw [Act.bind_of_error (show MLflowRegistry.ask server i (.createExperiment experimentName) s =
        (.error e, _) by unfold MLflowRegistry.ask; rw [hr])]
      exact h.refused i experimentName e
    | ok experimentId =>
      have hfresh : PyStreamAI.created experimentName s.events = 0 := by
        by_contra hne
        obtain ⟨e, he⟩ := hexists s.events i experimentName (Nat.pos_of_ne_zero hne)
        rw [hr] at he
        cases he
      rw [Act.bind_of_ok (show MLflowRegistry.ask server i (.createExperiment experimentName) s =
        (.ok experimentId, _) by unfold MLflowRegistry.ask; rw [hr]), Act.snd_bind_pure,
        MLflowRegistry.events_tell]
      exact h.selects hfresh experimentId _

theorem SelectedOnce.of_extends {i : ι} {s s' : TrackerSession ι V} (h : SelectedOnce s.events)
    (hs : Extends MLflowCall.Session i s s') : SelectedOnce s'.events := by
  obtain ⟨evs, hevs, hall⟩ := hs
  rw [hevs]
  exact h.append_of_session fun e he => (hall e he).2

theorem SelectedOnce.init {s : TrackerSession ι V} (h : SelectedOnce s.events)
    (hexists : ∀ events i name, 0 < PyStreamAI.created name events →
      ∃ e, server events i (.createExperiment name) = .error (.exception e))
    (i : ι) (experimentName : String) :
    SelectedOnce (ModelTracker.init server i experimentName s).2.events := by
  have hset : (MLflowRegistry.initMlflow server i).Keeps fun s => SelectedOnce s.events :=
    fun s hs => hs.of_extends (MLflowRegistry.within_initMlflow (fun _ hc => hc.session) s)
  refine Act.bind_keeps (P := fun s : TrackerSession ι V => SelectedOnce s.events) (hset s h) fun _ => ?_
  exact Act.Keeps.bind (fun s hs => hs.startExperiment hexists i experimentName) fun _ _ hs => hs

end Experiments

namespace Trackers

variable {server : MLflowServer ι V}

theorem SelectedOnce.call {s : Trackers ι V} (h : SelectedOnce s.events)
    (hexists : ∀ events i name, 0 < created name events →
      ∃ e, server events i (.createExperiment name) = .error (.exception e))
    (i : ι) (op : TrackerOp V) : SelectedOnce (s.call server i op).2.events := by
  have hmethod : ∀ x : Act (TrackerSession ι V) Unit, x.Within (Extends MLflowCall.Session i) →
      SelectedOnce (call.method s i x).2.events := by
    intro x hx
    unfold call.method
    cases ht : s.trackers i with
    | none => exact h
    | some tracker => exact SelectedOnce.of_extends (s := ⟨s.events, tracker⟩) h (hx _)
  cases op with
  | startTraining modelName params =>
    exact hmethod _ (ModelTracker.within_startTraining modelName params)
  | logTrainingMetrics epoch metrics =>
    exact hmethod _ (MLflowRegistry.within_logMetrics (fun _ h => h.session) metrics (some epoch))
  | endTraining model modelName tags =>
    exact hmethod _ (ModelTracker.within_endTraining model modelName tags)
  | new experimentName =>
    unfold Trackers.call
    dsimp only
    cases ht : s.trackers i with
    | some tracker => exact h
    | none =>
      have hinit := SelectedOnce.init (s := ⟨s.events, ModelTracker.fresh⟩) h hexists i experimentName
      rcases hr : ModelTracker.init server i experimentName ⟨s.events, ModelTracker.fresh⟩ with
        ⟨e | _, s'⟩ <;> rw [hr] at hinit
      · exact hinit
      · exact hinit

/-- **Experiments.** On a server that refuses to create an experiment twice, an experiment is created
once at most, a tracker selects it exactly as often as it created it, and so no two trackers select
one experiment. -/
theorem experiment_selected_once
    (hexists : ∀ events i name, 0 < created name events →
      ∃ e, server events i (.createExperiment name) = .error (.exception e))
    (tr : List (ι × TrackerOp V)) (name : String) :
    created name (run (step server) init tr).events ≤ 1 ∧
    (∀ i, selectedBy name i (run (step server) init tr).events =
      createdBy name i (run (step server) init tr).events) ∧
    ∀ i j, 0 < selectedBy name i (run (step server) init tr).events → i ≠ j →
      selectedBy name j (run (step server) init tr).events = 0 := by
  have hinit : SelectedOnce (init : Trackers ι V).events := ⟨fun _ => Nat.zero_le 1, fun _ _ => rfl⟩
  have hrun : SelectedOnce (run (step server) init tr).events :=
    run_invariant (I := fun s : Trackers ι V => SelectedOnce s.events) hinit
      (fun s hs a => SelectedOnce.call hs hexists a.1 a.2) tr
  refine ⟨hrun.created name, hrun.selected name, fun i j hi hne => ?_⟩
  have hle := createdBy_add_le hne name (run (step server) init tr).events
  have hone := hrun.created name
  rw [hrun.selected] at hi ⊢
  omega

/-- Two trackers of one experiment on such a server: only the first selects it. -/
theorem experiment_selected_once_two :
    let server : MLflowServer Bool Unit := fun events _ call =>
      match call with
      | .createExperiment name =>
        if 0 < created name events then .error (.exception ⟨"MlflowException", "exists"⟩)
        else .ok "1"
      | _ => .ok ""
    let s := run (step server) init [(false, .new "e"), (true, .new "e")]
    selectedBy "e" false s.events = 1 ∧ selectedBy "e" true s.events = 0 ∧
      (s.trackers true).map ModelTracker.experimentId = some "local" := by
  intro server s
  have hexists : ∀ events i name, 0 < created name events →
      ∃ e, server events i (.createExperiment name) = .error (.exception e) :=
    fun events i name h => ⟨_, if_pos h⟩
  have hfirst : selectedBy "e" false s.events = 1 := by decide +kernel
  refine ⟨hfirst, ?_, by decide +kernel⟩
  exact (experiment_selected_once hexists _ "e").2.2 false true (by rw [hfirst]; decide) (by decide)

end Trackers

end PyStreamAI
