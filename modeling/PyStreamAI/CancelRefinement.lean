import PyStreamAI.EngineCancellation
import PyStreamAI.EngineDelivery

/-!
# What a cancellation does to the other calls

To the other calls a cancelled call is one that is not run any more: a run with cancellations does
to the queue, the results and the endpoints what the run without them does in which only the
`surviving` actions are taken (`cancel_follows`). So calls that are not cancelled get what they get
without cancellations (`infer_delivers_cancelled`).
-/

open Py Machine

namespace PyStreamAI.Engine

variable {ι Input Output World : Type} [DecidableEq ι] {requests : ι → InferenceRequest Input}

/-- The events of an action; a cancellation has none. -/
def emitCancel (s : Engine ι Input Output World) :
    CancelAction ι Input Output World → List (Event ι Input Output World)
  | .act a => emit s a
  | .cancel _ => []

/-- The events of a schedule with cancellations. -/
def cancelEvents (requests : ι → InferenceRequest Input) (s : Engine ι Input Output World)
    (tr : List (CancelAction ι Input Output World)) : List (Event ι Input Output World) :=
  log (cancelStep requests) emitCancel s tr

/-- The action that is left of an action when calls are not cancelled: cancellations and the runs of
calls that are over are left out. -/
def surviving (s : Engine ι Input Output World) :
    CancelAction ι Input Output World → List (Action ι Input Output World)
  | .act (.run i) => if (s.calls i).pc.ended then [] else [.run i]
  | .act a => [a]
  | .cancel _ => []

/-- The schedule without cancellations. -/
def survivors (requests : ι → InferenceRequest Input) (s : Engine ι Input Output World)
    (tr : List (CancelAction ι Input Output World)) : List (Action ι Input Output World) :=
  log (cancelStep requests) surviving s tr

/-- `t` is `s`, but for the cancelled calls, which are suspended in `t`. -/
structure Frozen (s t : Engine ι Input Output World) : Prop where
  shared : t = { s with calls := t.calls }
  calls : ∀ i, t.calls i = s.calls i ∨
    (t.calls i).pc.suspended = true ∧ (s.calls i).pc = .finished (.error cancelledError)

section Steps

variable {s t : Engine ι Input Output World}

/-- What a call does depends on its own position only, not on those of the others. -/
theorem advance_with (s : Engine ι Input Output World) {calls : ι → Call Input Output World} {i : ι}
    (h : calls i = s.calls i) :
    ({ s with calls } : Engine ι Input Output World).advance requests i =
      { s.advance requests i with
        calls := Function.update calls i ((s.advance requests i).calls i) } := by
  unfold advance
  simp only [h]
  cases hpc : (s.calls i).pc with
  | looping =>
    cases hr : s.results.get? (requests i).requestId with
    | none => simp [goto, setCall, h]
    | some result => simp [goto, setCall, h]
  | flushing =>
    by_cases hq : s.batchQueue.flush.1 = []
    · simp [goto, setCall, h, hq]
    · simp [goto, setCall, h, hq]
  | batching batch groups results =>
    cases groups with
    | nil => simp [goto, setCall, h]
    | cons group groups =>
      obtain ⟨modelId, rs⟩ := group
      cases hm : s.modelCache.get? modelId with
      | none => simp [goto, setCall, h, hm]
      | some endpoint => simp [goto, setCall, h, hm]
  | finished outcome => rw [← h, Function.update_eq_self]
  | _ => simp [goto, setCall, h]

omit [DecidableEq ι] in
theorem observe_with (s : Engine ι Input Output World) {calls : ι → Call Input Output World} {i : ι}
    (h : calls i = s.calls i) :
    ({ s with calls } : Engine ι Input Output World).observe i = s.observe i := by
  unfold observe
  simp only [h]

omit [DecidableEq ι] in
theorem Frozen.calls_of_not_ended (h : Frozen s t) {i : ι} (hi : (s.calls i).pc.ended = false) :
    t.calls i = s.calls i := by
  refine (h.calls i).resolve_right fun hc => ?_
  rw [hc.2] at hi
  cases hi

variable (requests) in
theorem Frozen.run (h : Frozen s t) {i : ι} (hi : t.calls i = s.calls i) :
    t.observe i = s.observe i ∧ Frozen (s.advance requests i) (t.advance requests i) := by
  have hshared := h.shared
  rw [hshared]
  refine ⟨observe_with s hi, ?_⟩
  rw [advance_with s hi]
  refine ⟨rfl, fun j => ?_⟩
  by_cases hj : j = i
  · rw [hj]
    exact Or.inl (Function.update_self i _ _)
  · have hother := calls_of_moves requests (advance_moves requests s i) hj
    dsimp only
    rw [Function.update_of_ne hj, hother]
    exact h.calls j

theorem Frozen.cancel (h : Frozen s t) (i : ι) : Frozen (s.cancel i) t := by
  unfold Engine.cancel
  split_ifs with hs
  · have hi : t.calls i = s.calls i := h.calls_of_not_ended (Pc.ended_of_suspended hs)
    refine ⟨h.shared, fun j => ?_⟩
    by_cases hj : j = i
    · rw [hj, goto_pc_self, hi]
      exact Or.inr ⟨hs, rfl⟩
    · rw [calls_goto_of_ne s _ hj]
      exact h.calls j
  · exact h

/-- A step is followed by the actions that survive. -/
theorem Frozen.step (h : Frozen s t) (a : CancelAction ι Input Output World) :
    emitCancel s a = log (Engine.step requests) emit t (surviving s a) ∧
      Frozen (s.cancelStep requests a) (Machine.run (Engine.step requests) t (surviving s a)) := by
  cases a with
  | cancel i => exact ⟨rfl, h.cancel i⟩
  | act a =>
    cases a with
    | tick now =>
      have hshared := h.shared
      rw [hshared]
      exact ⟨rfl, rfl, h.calls⟩
    | load modelId endpoint =>
      have hshared := h.shared
      rw [hshared]
      exact ⟨rfl, rfl, h.calls⟩
    | run i =>
      by_cases hi : (s.calls i).pc.ended = true
      · have hnone : surviving s (.act (.run i)) = [] := if_pos hi
        obtain ⟨hstay, hsilent⟩ := run_of_ended requests hi
        rw [hnone]
        refine ⟨hsilent, ?_⟩
        show Frozen (s.advance requests i) t
        rw [hstay]
        exact h
      · have hone : surviving s (.act (.run i)) = [.run i] := if_neg hi
        obtain ⟨hobserve, hnext⟩ :=
          h.run requests (h.calls_of_not_ended (Bool.not_eq_true _ ▸ hi))
        rw [hone, log, log_nil, List.append_nil]
        exact ⟨hobserve.symm, hnext⟩

variable (requests) in
/-- A run with cancellations is followed by the one in which the surviving actions are taken. -/
theorem cancel_follows (s₀ : Engine ι Input Output World)
    (tr : List (CancelAction ι Input Output World)) :
    cancelEvents requests s₀ tr = events requests s₀ (survivors requests s₀ tr) ∧
      Frozen (Machine.run (cancelStep requests) s₀ tr)
        (Machine.run (Engine.step requests) s₀ (survivors requests s₀ tr)) :=
  follows ⟨rfl, fun _ => Or.inl rfl⟩ (fun _ _ h a => h.step a) tr

end Steps

/-! ## Delivery -/

variable (requests) in
/-- What holds of a schedule in which calls may be cancelled: the other calls get what they get when
the cancelled ones are not run any more, no id is handed or predicted twice, and a call that ends
without being cancelled delivers what was computed for its own request from what the cache then held
for its model. -/
structure DeliversCancelled (s₀ : Engine ι Input Output World)
    (tr : List (CancelAction ι Input Output World)) : Prop where
  events_eq : cancelEvents requests s₀ tr = events requests s₀ (survivors requests s₀ tr)
  frozen : Frozen (run (cancelStep requests) s₀ tr)
    (run (Engine.step requests) s₀ (survivors requests s₀ tr))
  handed_once : ∀ id, withId id (handed (cancelEvents requests s₀ tr)) ≤ 1
  invoked_once : ∀ id, withId id (invoked (cancelEvents requests s₀ tr)) ≤ 1
  own : ∀ i outcome, ((run (cancelStep requests) s₀ tr).calls i).pc = .finished outcome →
    outcome = .error cancelledError ∨ ∃ latencyMs result,
      Computed (cancelEvents requests s₀ tr) (requests i) result ∧
        outcome = deliver (requests i) latencyMs result
  cached : ∀ j batch m found, .looked j batch m found ∈ cancelEvents requests s₀ tr →
    ∃ pre, pre <+: tr ∧ (run (cancelStep requests) s₀ pre).modelCache.get? m = found

/-- A lookup read the cache as it was at that step. -/
theorem looked_cancel {s₀ : Engine ι Input Output World}
    {tr : List (CancelAction ι Input Output World)} {j : ι} {batch : List (InferenceRequest Input)}
    {m : String} {found : Option (Endpoint Input Output World)}
    (h : .looked j batch m found ∈ cancelEvents requests s₀ tr) :
    ∃ pre, pre <+: tr ∧ (run (cancelStep requests) s₀ pre).modelCache.get? m = found := by
  obtain ⟨pre, a, hpre, ha⟩ := exists_of_mem_log h
  refine ⟨pre, (List.prefix_append pre [a]).trans hpre, ?_⟩
  cases a with
  | cancel i => cases ha
  | act a =>
    cases a with
    | run i => exact looked_of_moves (advance_moves requests _ i) ha
    | tick now => cases ha
    | load modelId endpoint => cases ha

/-- **Delivery under cancellation.** In every schedule of calls with distinct ids, any of which may
be cancelled, the calls that are not cancelled get what they get without cancellations. -/
theorem infer_delivers_cancelled [Fintype ι]
    (hinj : Function.Injective fun i => (requests i).requestId) (maxBatchSize : ℤ) (maxWaitMs : ℚ)
    (modelCache : Dict String (Endpoint Input Output World)) (world : World) (now : ℚ)
    (tr : List (CancelAction ι Input Output World)) :
    DeliversCancelled requests (init maxBatchSize maxWaitMs modelCache world now) tr := by
  obtain ⟨hevents, hfrozen⟩ := cancel_follows requests
    (init maxBatchSize maxWaitMs modelCache world now) tr
  have hc : Counted requests _ _ := counted_run maxBatchSize maxWaitMs modelCache world now
    (survivors requests (init maxBatchSize maxWaitMs modelCache world now) tr)
  have hs : Sourced requests _ _ := sourced_run maxBatchSize maxWaitMs modelCache world now
    (survivors requests (init maxBatchSize maxWaitMs modelCache world now) tr)
  have hhanded : ∀ id, withId id (handed (cancelEvents requests
      (init maxBatchSize maxWaitMs modelCache world now) tr)) ≤ 1 := by
    intro id
    have heq := hc.handed_eq id
    have hle := added_le_one hinj (run (Engine.step requests)
      (init maxBatchSize maxWaitMs modelCache world now)
      (survivors requests (init maxBatchSize maxWaitMs modelCache world now) tr)) id
    rw [hevents]
    omega
  refine ⟨hevents, hfrozen, hhanded, fun id => ?_, fun i outcome hi => ?_,
    fun _ _ _ _ h => looked_cancel h⟩
  · have hle := hc.invoked_le id
    have hone := hhanded id
    rw [hevents] at hone ⊢
    omega
  · rcases hfrozen.calls i with hsame | ⟨-, hcancelled⟩
    · -- the call is where it is in the schedule without cancellations
      have hs := hs.pcs i
      rw [hsame, hi] at hs
      obtain ⟨latencyMs, result, k, hk, hcomp, ho⟩ := hs
      obtain rfl : k = i := hinj hk
      rw [hevents]
      exact Or.inr ⟨latencyMs, result, hcomp, ho⟩
    · rw [hcancelled] at hi
      exact Or.inl (Pc.finished.inj hi).symm

/-- The first call is cancelled in its sleep; the second one runs the batch of both. -/
def outlivedTwo : List (CancelAction Bool ℕ ℕ Unit) :=
  [.act (.load "m" doubling), .act (.run false), .act (.run false), .act (.run false),
    .act (.run false), .cancel false, .act (.run true), .act (.run true), .act (.tick 2),
    .act (.run true), .act (.run true), .act (.run true), .act (.run true), .act (.run true),
    .act (.run true), .act (.run true)]

/-- The second call gets its own output, as if the first one slept on. -/
theorem outlivedTwo_delivers :
    let s := run (cancelStep twoIds) (init 32 100 ∅ () 1) outlivedTwo
    (s.calls false).pc.ended = true ∧ (s.calls false).pc.response.isNone = true ∧
      ((s.calls true).pc.response.map fun r => (r.requestId, r.output, r.batchSize)) =
        some ("b", some 4, 2) ∧
      DeliversCancelled twoIds (init 32 100 ∅ () 1) outlivedTwo := by
  intro s
  have hended : (s.calls false).pc.ended = true := by decide +kernel
  have hnone : (s.calls false).pc.response.isNone = true := by decide +kernel
  have hown : ((s.calls true).pc.response.map fun r => (r.requestId, r.output, r.batchSize)) =
      some ("b", some 4, 2) := by decide +kernel
  exact ⟨hended, hnone, hown, infer_delivers_cancelled twoIds_injective 32 100 ∅ () 1 outlivedTwo⟩

end PyStreamAI.Engine
