import Mathlib.Data.List.MinMax
import PyStreamAI.Py.Basic
import PyStreamAI.RequestScheduler

/-!
# The fair-share scheduler

One heap and one balance of tokens a model. The model with the most tokens is served, and a served
request costs its estimated compute in seconds. A model without requests takes part in the choice
with the score `-1`, so it wins over backlogged models whose balances are all lower. Tokens are
rational numbers.
-/

open Py Machine

namespace PyStreamAI

/-- Fair-share scheduling across models. Every model has a queue and a balance, so `self.models`
indexes both dictionaries safely. -/
structure FairShareScheduler where
  models : List String
  modelQueues : Dict String (List ScheduledRequest)
  modelTokens : Dict String ℚ
  tokenRate : ℚ
  keys_modelQueues : ∀ m ∈ models, m ∈ modelQueues.keys
  keys_modelTokens : ∀ m ∈ models, m ∈ modelTokens.keys

namespace FairShareScheduler

/-- `FairShareScheduler(models)`: empty queues and one token a model. -/
def init (models : List String) : FairShareScheduler where
  models := models
  modelQueues := Dict.ofKeys models []
  modelTokens := Dict.ofKeys models 1
  tokenRate := 1
  keys_modelQueues _ := Dict.mem_keys_ofKeys.mpr
  keys_modelTokens _ := Dict.mem_keys_ofKeys.mpr

/-- `self.model_queues[m]` of a model. -/
def queueOf (s : FairShareScheduler) (m : String) : List ScheduledRequest := s.modelQueues.getD m []

/-- `self.model_tokens[m]` of a model. -/
def balance (s : FairShareScheduler) (m : String) : ℚ := s.modelTokens.getD m 0

/-- Enqueue a request to the queue of its model, unless the model is unknown. -/
def enqueue (s : FairShareScheduler) (request : ScheduledRequest) : Bool × FairShareScheduler :=
  if s.modelQueues.contains request.modelId then
    (true,
      { s with
        modelQueues := s.modelQueues.set request.modelId
          (Heapq.heappush ScheduledRequest.lt (s.queueOf request.modelId) request)
        keys_modelQueues := fun m hm => Dict.mem_keys_set.mpr (.inr (s.keys_modelQueues m hm)) })
  else (false, s)

/-- The score `dequeue_fair` compares the models by. -/
def score (s : FairShareScheduler) (m : String) : ℚ := if s.queueOf m ≠ [] then s.balance m else -1

/-- The tokens a request costs. -/
def cost (request : ScheduledRequest) : ℚ := request.estimatedComputeMs / 1000

/-- Take `request` out of the queue of the model `best`, which leaves `rest`, and charge it. -/
def serve (s : FairShareScheduler) (best : String) (request : ScheduledRequest)
    (rest : List ScheduledRequest) : FairShareScheduler :=
  { s with
    modelQueues := s.modelQueues.set best rest
    modelTokens := s.modelTokens.set best (s.balance best - cost request)
    keys_modelQueues := fun m hm => Dict.mem_keys_set.mpr (.inr (s.keys_modelQueues m hm))
    keys_modelTokens := fun m hm => Dict.mem_keys_set.mpr (.inr (s.keys_modelTokens m hm)) }

/-- Dequeue from the first model of the highest score. `max` of no models raises. -/
def dequeueFair (s : FairShareScheduler) :
    Res FairShareScheduler (Option (ScheduledRequest × String)) :=
  match s.models.argmax s.score with
  | none => (.error ⟨"ValueError", "max() iterable argument is empty"⟩, s)
  | some best =>
    match Heapq.heappop ScheduledRequest.lt (s.queueOf best) with
    | none => (.ok none, s)
    | some (request, rest) => (.ok (some (request, best)), s.serve best request rest)

/-- `for model in models: tokens[model] += rate`. -/
def refill (rate : ℚ) (models : List String) (tokens : Dict String ℚ) : Dict String ℚ :=
  models.foldl (fun tokens m => tokens.set m (tokens.getD m 0 + rate)) tokens

theorem mem_keys_refill {rate : ℚ} {models : List String} {tokens : Dict String ℚ} {m : String}
    (h : m ∈ tokens.keys) : m ∈ (refill rate models tokens).keys := by
  unfold refill
  induction models generalizing tokens with
  | nil => exact h
  | cons m' models ih => exact ih (Dict.mem_keys_set.mpr (.inr h))

/-- Refill the tokens of every model. -/
def refillTokens (s : FairShareScheduler) : FairShareScheduler :=
  { s with
    modelTokens := refill s.tokenRate s.models s.modelTokens
    keys_modelTokens := fun m hm => mem_keys_refill (s.keys_modelTokens m hm) }

/-! ## Histories of calls -/

/-- One call on a scheduler. -/
inductive Op
  | enqueue (request : ScheduledRequest)
  | dequeueFair
  | refillTokens

/-- The scheduler after a call, which may have raised. -/
def step (s : FairShareScheduler) : Op → FairShareScheduler
  | .enqueue request => (s.enqueue request).2
  | .dequeueFair => s.dequeueFair.2
  | .refillTokens => s.refillTokens

/-- The request a call serves, with the model it is served for. -/
def emitServed (s : FairShareScheduler) : Op → List (ScheduledRequest × String)
  | .dequeueFair => match s.dequeueFair.1 with
    | .ok (some p) => [p]
    | _ => []
  | _ => []

/-- The requests served in a history, oldest first. -/
def served (s : FairShareScheduler) (tr : List Op) : List (ScheduledRequest × String) :=
  log step emitServed s tr

theorem served_snoc (s : FairShareScheduler) (tr : List Op) (op : Op) :
    served s (tr ++ [op]) = served s tr ++ emitServed (run step s tr) op := log_snoc s tr op

/-! ## What a call does -/

/-- All a `dequeue_fair` can do: raise for want of models, find the best model idle, or serve. -/
theorem dequeueFair_cases (s : FairShareScheduler) :
    (s.models = [] ∧ ∃ e, s.dequeueFair = (.error e, s)) ∨
    (∃ best ∈ s.models.argmax s.score, s.queueOf best = [] ∧ s.dequeueFair = (.ok none, s)) ∨
    ∃ best ∈ s.models.argmax s.score, ∃ request rest,
      Heapq.heappop ScheduledRequest.lt (s.queueOf best) = some (request, rest) ∧
      s.dequeueFair = (.ok (some (request, best)), s.serve best request rest) := by
  unfold dequeueFair
  cases hbest : s.models.argmax s.score with
  | none => exact .inl ⟨List.argmax_eq_none.mp hbest, _, rfl⟩
  | some best =>
    dsimp only
    cases hpop : Heapq.heappop ScheduledRequest.lt (s.queueOf best) with
    | none => exact .inr (.inl ⟨best, rfl, (Heapq.heappop_eq_none _).mp hpop, rfl⟩)
    | some popped => exact .inr (.inr ⟨best, rfl, popped.1, popped.2, hpop, rfl⟩)

theorem emitServed_of_serve {s s' : FairShareScheduler} {p : ScheduledRequest × String}
    (h : s.dequeueFair = (.ok (some p), s')) : emitServed s .dequeueFair = [p] := by
  unfold emitServed
  rw [h]

theorem models_step (s : FairShareScheduler) (op : Op) : (step s op).models = s.models := by
  cases op with
  | enqueue request =>
    show (s.enqueue request).2.models = _
    unfold enqueue
    split_ifs <;> rfl
  | dequeueFair =>
    show s.dequeueFair.2.models = _
    obtain ⟨-, e, h⟩ | ⟨best, -, -, h⟩ | ⟨best, -, request, rest, -, h⟩ := s.dequeueFair_cases
    · rw [h]
    · rw [h]
    · rw [h]
      rfl
  | refillTokens => rfl

theorem models_run (s : FairShareScheduler) (tr : List Op) : (run step s tr).models = s.models :=
  run_invariant (I := fun s' : FairShareScheduler => s'.models = s.models) rfl
    (fun s' h op => (models_step s' op).trans h) tr

theorem balance_enqueue (s : FairShareScheduler) (request : ScheduledRequest) (m : String) :
    (s.enqueue request).2.balance m = s.balance m := by
  unfold enqueue
  split_ifs <;> rfl

theorem balance_serve (s : FairShareScheduler) (best : String) (request : ScheduledRequest)
    (rest : List ScheduledRequest) (m : String) :
    (s.serve best request rest).balance m =
      if m = best then s.balance best - cost request else s.balance m :=
  Dict.getD_set s.modelTokens best m _ 0

theorem getD_refill (rate : ℚ) {models : List String} (hn : models.Nodup) (tokens : Dict String ℚ)
    (m : String) :
    (refill rate models tokens).getD m 0 = tokens.getD m 0 + if m ∈ models then rate else 0 := by
  unfold refill
  induction models generalizing tokens with
  | nil => simp
  | cons m' models ih =>
    rw [List.nodup_cons] at hn
    rw [List.foldl_cons, ih hn.2, Dict.getD_set]
    by_cases h : m = m'
    · rw [if_pos h, h, if_neg hn.1, if_pos List.mem_cons_self, add_zero]
    · simp only [List.mem_cons, h, false_or, if_false]

/-- Distinct models are all refilled once. -/
theorem balance_refillTokens {s : FairShareScheduler} (hn : s.models.Nodup) {m : String}
    (hm : m ∈ s.models) : s.refillTokens.balance m = s.balance m + s.tokenRate := by
  refine (getD_refill s.tokenRate hn s.modelTokens m).trans ?_
  rw [if_pos hm]
  rfl

end FairShareScheduler

end PyStreamAI
