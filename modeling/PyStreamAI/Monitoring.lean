import Mathlib.Data.List.Pairwise
import PyStreamAI.Machine
import PyStreamAI.Py.Basic

/-!
# Metric collection

A collector keeps every metric and hands it to its active backend. What a call on a backend does is
up to the backend: whether it counts as true and how the call ends are arguments of the operation.
`set_backend` closes the backend it replaces, `close` closes the active one and keeps it. A log after
that goes to a closed backend, and so do the logs after the active backend is set again or its
`close` raised (`delivers_iff`); everything else about the delivery holds whatever the backends do.
-/

open Py Machine

namespace PyStreamAI

variable {β μ : Type}

/-- A call on a backend. -/
inductive BackendCall (β μ : Type)
  | logMetric (backend : β) (metric : μ)
  | close (backend : β)
  deriving DecidableEq

namespace BackendCall

/-- The backend that is called. -/
def backend : BackendCall β μ → β
  | logMetric b _ => b
  | close b => b

/-- The metric that is passed. -/
def metric? : BackendCall β μ → Option μ
  | logMetric _ m => some m
  | close _ => none

/-- The second call does not log to a backend that the first one closes. -/
def KeepsOrder (c d : BackendCall β μ) : Prop := ∀ b m, c = close b → d ≠ logMetric b m

end BackendCall

/-- Collects and emits metrics to pluggable backends; `calls` are the calls it has made on them. -/
structure MetricCollector (β μ : Type) where
  backend : β
  metrics : List μ := []
  calls : List (BackendCall β μ) := []

namespace MetricCollector

/-- Log a metric. An `Exception` of the backend is caught. -/
def log (c : MetricCollector β μ) (metric : μ) (outcome : Except Exn Unit) :
    Except Exn Unit × MetricCollector β μ :=
  let c := { c with metrics := c.metrics ++ [metric] }
  let c := { c with calls := c.calls ++ [.logMetric c.backend metric] }
  match outcome with
  | .error (.base e) => (.error (.base e), c)
  | _ => (.ok (), c)

/-- Close the backend, if it counts as true. -/
def close (c : MetricCollector β μ) (truth : Bool) (outcome : Except Exn Unit) :
    Except Exn Unit × MetricCollector β μ :=
  if truth then (outcome, { c with calls := c.calls ++ [.close c.backend] }) else (.ok (), c)

/-- Switch the backend at runtime. -/
def setBackend (c : MetricCollector β μ) (backend : β) (truth : Bool) (outcome : Except Exn Unit) :
    Except Exn Unit × MetricCollector β μ :=
  match c.close truth outcome with
  | (.error e, c) => (.error e, c)
  | (.ok (), c) => (.ok (), { c with backend })

/-- Get all collected metrics. -/
def getMetrics (c : MetricCollector β μ) : List μ := c.metrics

/-- A call on a collector, with what the backend does. -/
inductive Op (β μ : Type)
  | log (metric : μ) (outcome : Except Exn Unit)
  | setBackend (backend : β) (truth : Bool) (outcome : Except Exn Unit)
  | close (truth : Bool) (outcome : Except Exn Unit)

/-- The collector after a call. -/
def step (c : MetricCollector β μ) : Op β μ → MetricCollector β μ
  | .log metric outcome => (c.log metric outcome).2
  | .setBackend backend truth outcome => (c.setBackend backend truth outcome).2
  | .close truth outcome => (c.close truth outcome).2

/-- A new backend is one that has never been called, or the active one. -/
def Admissible (c : MetricCollector β μ) : Op β μ → Prop
  | .setBackend backend _ _ => backend = c.backend ∨ ∀ call ∈ c.calls, call.backend ≠ backend
  | _ => True

/-! ## The life cycle of the active backend -/

/-- The active backend, and whether it was closed and kept. -/
structure LifeCycle (β : Type) where
  active : β
  closed : Bool

/-- What an operation makes of the active backend. -/
def LifeCycle.step [DecidableEq β] (l : LifeCycle β) : Op β μ → LifeCycle β
  | .log _ _ => l
  | .setBackend _ true (.error _) => ⟨l.active, true⟩
  | .setBackend backend true (.ok _) => ⟨backend, decide (backend = l.active)⟩
  | .setBackend backend false _ => ⟨backend, decide (backend = l.active) && l.closed⟩
  | .close truth _ => ⟨l.active, truth || l.closed⟩

/-- A log comes while the active backend is open. -/
def LogsOpen (l : LifeCycle β) : Op β μ → Prop
  | .log _ _ => l.closed = false
  | _ => True

/-- The metrics of the logs of a history. -/
def logged (tr : List (Op β μ)) : List μ :=
  tr.filterMap fun
    | .log metric _ => some metric
    | _ => none

/-- No backend is logged to after it was closed; each metric is passed once, in order and to the
backend that is active, and is kept. -/
structure Delivers (backend : β) (tr : List (Op β μ)) : Prop where
  order : (run step { backend } tr).calls.Pairwise BackendCall.KeepsOrder
  delivered : (run step { backend } tr).calls.filterMap BackendCall.metric? = logged tr
  active : ∀ pre metric outcome, pre ++ [.log metric outcome] <+: tr →
    (run step { backend } (pre ++ [.log metric outcome])).calls =
      (run step { backend } pre).calls ++ [.logMetric (run step { backend } pre).backend metric]
  kept : (run step { backend } tr).getMetrics = logged tr

/-! ## What a call does -/

section Calls

variable (c : MetricCollector β μ)

theorem log_snd (metric : μ) (outcome : Except Exn Unit) :
    (c.log metric outcome).2 =
      { c with
        metrics := c.metrics ++ [metric]
        calls := c.calls ++ [.logMetric c.backend metric] } := by
  unfold log
  rcases outcome with (e | e) | _ <;> rfl

theorem close_snd (truth : Bool) (outcome : Except Exn Unit) :
    (c.close truth outcome).2 =
      { c with calls := c.calls ++ if truth then [.close c.backend] else [] } := by
  unfold close
  cases truth with
  | true => rfl
  | false =>
    rw [if_neg Bool.false_ne_true, if_neg Bool.false_ne_true, List.append_nil]

theorem setBackend_snd (backend : β) (truth : Bool) (outcome : Except Exn Unit) :
    (c.setBackend backend truth outcome).2 =
      { c with
        backend := if truth = true ∧ outcome ≠ .ok () then c.backend else backend
        calls := c.calls ++ if truth then [.close c.backend] else [] } := by
  unfold setBackend close
  cases truth with
  | true =>
    rcases outcome with e | u
    · simp
    · simp
  | false => simp

end Calls

/-! ## Histories -/

theorem logged_snoc (tr : List (Op β μ)) (op : Op β μ) :
    logged (tr ++ [op]) = logged tr ++ logged [op] := List.filterMap_append

/-- What a collector keeps and passes on, whatever it is asked to do. -/
theorem delivered_run (backend : β) (tr : List (Op β μ)) :
    (run step { backend } tr).calls.filterMap BackendCall.metric? = logged tr ∧
      (run step { backend } tr).metrics = logged tr := by
  induction tr using List.reverseRecOn with
  | nil => exact ⟨rfl, rfl⟩
  | append_singleton tr op ih =>
    obtain ⟨hcalls, hmetrics⟩ := ih
    rw [run_snoc, logged_snoc]
    cases op with
    | log metric outcome =>
      rw [step, log_snd]
      exact ⟨by rw [List.filterMap_append, hcalls]; rfl, by rw [hmetrics]; rfl⟩
    | setBackend b truth outcome =>
      rw [step, setBackend_snd]
      refine ⟨?_, hmetrics.trans (List.append_nil _).symm⟩
      rw [List.filterMap_append, hcalls]
      cases truth <;> rfl
    | close truth outcome =>
      rw [step, close_snd]
      refine ⟨?_, hmetrics.trans (List.append_nil _).symm⟩
      rw [List.filterMap_append, hcalls]
      cases truth <;> rfl

/-- Closing is in order after any calls. -/
theorem pairwise_close_iff {calls : List (BackendCall β μ)} {b : β} :
    (calls ++ [BackendCall.close b]).Pairwise BackendCall.KeepsOrder ↔
      calls.Pairwise BackendCall.KeepsOrder := by
  rw [List.pairwise_append]
  refine ⟨fun h => h.1, fun h => ⟨h, List.pairwise_singleton _ _, ?_⟩⟩
  intro c _ d hd b' m _ hlog
  rw [List.mem_singleton.mp hd] at hlog
  cases hlog

/-- A log is in order when its backend was not closed before. -/
theorem pairwise_log_iff {calls : List (BackendCall β μ)} {b : β} {m : μ} :
    (calls ++ [BackendCall.logMetric b m]).Pairwise BackendCall.KeepsOrder ↔
      calls.Pairwise BackendCall.KeepsOrder ∧ BackendCall.close b ∉ calls := by
  rw [List.pairwise_append]
  constructor
  · rintro ⟨hcalls, -, hlog⟩
    exact ⟨hcalls, fun hmem => hlog _ hmem _ (List.mem_singleton_self _) b m rfl rfl⟩
  · rintro ⟨hcalls, hopen⟩
    refine ⟨hcalls, List.pairwise_singleton _ _, fun c hc d hd b' m' hclose hlog => ?_⟩
    rw [List.mem_singleton.mp hd] at hlog
    cases hlog
    exact hopen (hclose ▸ hc)

section LifeCycles

variable [DecidableEq β]

/-- The life cycle follows the collector: the active backend was closed exactly when it is marked. -/
structure Follows (l : LifeCycle β) (c : MetricCollector β μ) : Prop where
  active : l.active = c.backend
  closed : .close c.backend ∈ c.calls ↔ l.closed = true

theorem Follows.setBackend {l : LifeCycle β} {c : MetricCollector β μ} (h : Follows l c)
    {backend : β} (truth : Bool) (outcome : Except Exn Unit)
    (hnew : backend = c.backend ∨ ∀ call ∈ c.calls, call.backend ≠ backend) :
    Follows (l.step (.setBackend backend truth outcome : Op β μ))
      (c.setBackend backend truth outcome).2 := by
  rw [setBackend_snd]
  -- the backend that stays or comes was closed before exactly if it is the one that was active
  have hold : .close backend ∈ c.calls ↔ backend = l.active ∧ l.closed = true := by
    rw [h.active, ← h.closed]
    constructor
    · intro hmem
      rcases hnew with rfl | hnew
      · exact ⟨rfl, hmem⟩
      · exact absurd rfl (hnew _ hmem)
    · rintro ⟨rfl, hmem⟩
      exact hmem
  cases truth with
  | true =>
    rcases outcome with e | u
    · exact ⟨h.active, by simp [LifeCycle.step]⟩
    · refine ⟨rfl, ?_⟩
      by_cases hsame : backend = l.active
      · simp [LifeCycle.step, hsame, h.active]
      · have hne : backend ≠ c.backend := h.active ▸ hsame
        simp [LifeCycle.step, hold, hsame, hne]
  | false =>
    refine ⟨rfl, ?_⟩
    simp [LifeCycle.step, hold]

theorem Follows.step {l : LifeCycle β} {c : MetricCollector β μ} (h : Follows l c) {op : Op β μ}
    (hadm : c.Admissible op) : Follows (l.step op) (c.step op) := by
  cases op with
  | log metric outcome =>
    rw [MetricCollector.step, log_snd]
    refine ⟨h.active, ?_⟩
    rw [List.mem_append, h.closed]
    simp [LifeCycle.step]
  | setBackend backend truth outcome => exact h.setBackend truth outcome hadm
  | close truth outcome =>
    rw [MetricCollector.step, close_snd]
    refine ⟨h.active, ?_⟩
    rw [List.mem_append, h.closed]
    cases truth <;> simp [LifeCycle.step]

omit [DecidableEq β] in
/-- One call keeps the order of the calls exactly when it does not log to a closed backend. -/
theorem pairwise_step_iff {l : LifeCycle β} {c : MetricCollector β μ} (h : Follows l c)
    (op : Op β μ) :
    (c.step op).calls.Pairwise BackendCall.KeepsOrder ↔
      c.calls.Pairwise BackendCall.KeepsOrder ∧ LogsOpen l op := by
  cases op with
  | log metric outcome =>
    rw [MetricCollector.step, log_snd]
    dsimp only
    rw [pairwise_log_iff, h.closed, Bool.not_eq_true]
    rfl
  | setBackend backend truth outcome =>
    rw [MetricCollector.step, setBackend_snd]
    refine Iff.trans ?_ (and_iff_left trivial).symm
    cases truth with
    | true => exact pairwise_close_iff
    | false => simp
  | close truth outcome =>
    rw [MetricCollector.step, close_snd]
    refine Iff.trans ?_ (and_iff_left trivial).symm
    cases truth with
    | true => exact pairwise_close_iff
    | false => simp

theorem pairwise_run_iff {backend : β} {tr : List (Op β μ)}
    (h : Along step Admissible { backend } tr) :
    Follows (run LifeCycle.step ⟨backend, false⟩ tr) (run step { backend } tr) ∧
      ((run step { backend } tr).calls.Pairwise BackendCall.KeepsOrder ↔
        Along LifeCycle.step LogsOpen ⟨backend, false⟩ tr) := by
  induction tr using List.reverseRecOn with
  | nil => exact ⟨⟨rfl, by simp⟩, by simp⟩
  | append_singleton tr op ih =>
    obtain ⟨htr, hadm⟩ := along_snoc.mp h
    obtain ⟨hfollows, hiff⟩ := ih htr
    rw [run_snoc, run_snoc, along_snoc, ← hiff]
    exact ⟨hfollows.step hadm, pairwise_step_iff hfollows op⟩

/-- **Delivery.** Where `set_backend` is called with backends that were never called or with the
active one, a collector delivers exactly when every log comes while the active backend is open: not
after `close`, after setting the active backend again, or after its `close` raised in `set_backend`,
until the next new backend. -/
theorem delivers_iff {backend : β} {tr : List (Op β μ)}
    (h : Along step Admissible { backend } tr) :
    Delivers backend tr ↔ Along LifeCycle.step LogsOpen ⟨backend, false⟩ tr := by
  rw [← (pairwise_run_iff h).2]
  refine ⟨fun hd => hd.order, fun horder => ?_⟩
  obtain ⟨hdelivered, hkept⟩ := delivered_run backend tr
  refine ⟨horder, hdelivered, fun pre metric outcome _ => ?_, hkept⟩
  rw [run_snoc, step, log_snd]

end LifeCycles

/-- Two backends in turn; the first one refuses a metric. -/
def switched : List (Op ℕ String) :=
  [.log "a" (.error (.exception ⟨"RuntimeError", "boom"⟩)), .setBackend 2 true (.ok ()),
    .log "b" (.ok ())]

theorem delivers_switched : Delivers 1 switched :=
  (@delivers_iff ℕ String _ 1 switched ⟨trivial, .inr (by simp [step, log_snd, BackendCall.backend]),
    trivial, trivial⟩).mpr ⟨rfl, trivial, rfl, trivial⟩

/-- After `close` the collector goes on logging to the backend it has closed. -/
theorem closed_logs :
    (run step { backend := 1 } [.close true (.ok ()), .log "a" (.ok ())]).calls =
        [.close 1, .logMetric 1 "a"] ∧
      ¬ Delivers 1 [.close true (.ok ()), .log "a" (.ok ())] := by
  refine ⟨rfl, fun h => ?_⟩
  have horder : [BackendCall.close 1, .logMetric 1 "a"].Pairwise BackendCall.KeepsOrder := h.order
  rw [List.pairwise_pair] at horder
  exact horder 1 "a" rfl rfl

end MetricCollector

end PyStreamAI
