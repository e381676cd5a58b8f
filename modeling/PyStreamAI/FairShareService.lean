import Mathlib.Algebra.Order.Ring.Rat
import PyStreamAI.FairShare
import PyStreamAI.Py.HeapOrder

/-!
# Work conservation

An idle model competes with the score `-1`. Its score is no balance, so backlogged models whose
charges have taken them to `-1` or below lose to it, and nothing is served. Every queue is a heap, so
where a backlogged model wins, `dequeue_fair` does what it says (`serves_iff`).
-/

open Py Machine Heapq

namespace PyStreamAI

theorem ScheduledRequest.lt_iff (r s : ScheduledRequest) :
    ScheduledRequest.lt r s = true ↔ r.priority < s.priority := decide_eq_true_iff

namespace FairShareScheduler

/-! ## The contract of a call -/

/-- `dequeue_fair` returns `None` and changes nothing. -/
def ReturnsNone (s : FairShareScheduler) : Prop := s.dequeueFair = (.ok none, s)

/-- `dequeue_fair` serves a request of minimal priority value from a backlogged model with the most
tokens, takes only that request out of the queues, and charges only that model for it. -/
def ServesBest (s : FairShareScheduler) : Prop :=
  ∃ best ∈ s.models, ∃ request s', s.dequeueFair = (.ok (some (request, best)), s') ∧
    (∀ m ∈ s.models, s.queueOf m ≠ [] → s.balance m ≤ s.balance best) ∧
    (∀ r ∈ s.queueOf best, request.priority ≤ r.priority) ∧
    (s.queueOf best).Perm (request :: s'.queueOf best) ∧
    (∀ m, m ≠ best → s'.queueOf m = s.queueOf m) ∧
    s'.balance best = s.balance best - request.estimatedComputeMs / 1000 ∧
    ∀ m, m ≠ best → s'.balance m = s.balance m

/-- A call returns `None` exactly when every queue is empty, and serves otherwise. -/
def Serves (s : FairShareScheduler) : Op → Prop
  | .dequeueFair =>
    ((∀ m ∈ s.models, s.queueOf m = []) → s.ReturnsNone) ∧
      ((∃ m ∈ s.models, s.queueOf m ≠ []) → s.ServesBest)
  | _ => True

/-- There is a model, and some backlogged model, if any, wins against every idle one: its balance is
above `-1`, or `-1` and it comes earlier in the list. -/
def BacklogWins (s : FairShareScheduler) : Op → Prop
  | .dequeueFair =>
    s.models ≠ [] ∧ ((∃ m ∈ s.models, s.queueOf m ≠ []) →
      ∃ m ∈ s.models, s.queueOf m ≠ [] ∧ ∀ k ∈ s.models, s.queueOf k = [] →
        -1 < s.balance m ∨ s.balance m = -1 ∧ s.models.idxOf m < s.models.idxOf k)
  | _ => True

/-! ## The queues are heaps -/

/-- Every queue is a heap by priority. -/
def Heaped (s : FairShareScheduler) : Prop :=
  ∀ m, IsHeap ScheduledRequest.priority (s.queueOf m)

theorem queueOf_serve (s : FairShareScheduler) (best : String) (request : ScheduledRequest)
    (rest : List ScheduledRequest) (m : String) :
    (s.serve best request rest).queueOf m = if m = best then rest else s.queueOf m :=
  Dict.getD_set s.modelQueues best m rest []

theorem queueOf_enqueue (s : FairShareScheduler) (request : ScheduledRequest) (m : String) :
    (s.enqueue request).2.queueOf m = s.queueOf m ∨
      m = request.modelId ∧ (s.enqueue request).2.queueOf m =
        heappush ScheduledRequest.lt (s.queueOf m) request := by
  unfold enqueue
  split_ifs with hknown
  · by_cases hm : m = request.modelId
    · subst hm
      exact .inr ⟨rfl, (Dict.getD_set _ _ _ _ _).trans (if_pos rfl)⟩
    · exact .inl ((Dict.getD_set _ _ _ _ _).trans (if_neg hm))
  · exact .inl rfl

theorem Heaped.step {s : FairShareScheduler} (h : s.Heaped) (op : Op) : (s.step op).Heaped := by
  intro m
  cases op with
  | enqueue request =>
    show IsHeap _ ((s.enqueue request).2.queueOf m)
    rcases s.queueOf_enqueue request m with hsame | ⟨-, hpush⟩
    · rw [hsame]
      exact h m
    · rw [hpush]
      exact (h m).heappush ScheduledRequest.lt_iff request
  | dequeueFair =>
    show IsHeap _ (s.dequeueFair.2.queueOf m)
    obtain ⟨-, e, hd⟩ | ⟨best, -, -, hd⟩ | ⟨best, -, request, rest, hpop, hd⟩ :=
      s.dequeueFair_cases
    · rw [hd]
      exact h m
    · rw [hd]
      exact h m
    · rw [hd]
      dsimp only
      rw [queueOf_serve]
      split_ifs with hm
      · exact (h best).heappop ScheduledRequest.lt_iff hpop
      · exact h m
  | refillTokens => exact h m

theorem heaped_run (models : List String) (tr : List Op) : (run step (init models) tr).Heaped := by
  refine run_invariant (I := Heaped) (fun m => ?_) (fun s h op => h.step op) tr
  have hempty : (init models).queueOf m = [] := Dict.getD_ofKeys models [] m
  rw [hempty]
  exact isHeap_nil

/-! ## The choice -/

section Choice

variable {s : FairShareScheduler} {best : String}

theorem score_of_idle {m : String} (h : s.queueOf m = []) : s.score m = -1 := by
  unfold score
  rw [if_neg (not_not.mpr h)]

theorem score_of_backlogged {m : String} (h : s.queueOf m ≠ []) : s.score m = s.balance m := by
  unfold score
  rw [if_pos h]

/-- A backlogged model that is chosen is served as the contract says. -/
theorem servesBest_of_serve (h : s.Heaped) (hbest : best ∈ s.models.argmax s.score)
    {request : ScheduledRequest} {rest : List ScheduledRequest}
    (hpop : heappop ScheduledRequest.lt (s.queueOf best) = some (request, rest))
    (hd : s.dequeueFair = (.ok (some (request, best)), s.serve best request rest)) :
    s.ServesBest := by
  refine ⟨best, List.argmax_mem hbest, request, _, hd, fun m hm hback => ?_,
    (h best).heappop_le hpop, ?_, fun m hm => ?_, ?_, fun m hm => ?_⟩
  · have hle := List.le_of_mem_argmax hm hbest
    rwa [score_of_backlogged hback,
      score_of_backlogged (ne_nil_of_heappop ScheduledRequest.lt hpop)] at hle
  · rw [queueOf_serve, if_pos rfl]
    exact heappop_perm ScheduledRequest.lt hpop
  · rw [queueOf_serve, if_neg hm]
  · rw [balance_serve, if_pos rfl]
    rfl
  · rw [balance_serve, if_neg hm]

/-- A backlogged model that is chosen wins against every idle one. -/
theorem wins_of_argmax (hbest : best ∈ s.models.argmax s.score) (hback : s.queueOf best ≠ [])
    {k : String} (hk : k ∈ s.models) (hidle : s.queueOf k = []) :
    -1 < s.balance best ∨ s.balance best = -1 ∧ s.models.idxOf best < s.models.idxOf k := by
  have hle := List.le_of_mem_argmax hk hbest
  rw [score_of_idle hidle, score_of_backlogged hback] at hle
  rcases hle.lt_or_eq with hlt | heq
  · exact .inl hlt
  · have hsame : s.score best ≤ s.score k := by
      rw [score_of_idle hidle, score_of_backlogged hback, heq]
    refine .inr ⟨heq.symm, lt_of_le_of_ne (List.index_of_argmax hbest hk hsame) fun hidx => ?_⟩
    have hbk : best = k := (List.idxOf_inj (List.argmax_mem hbest)).mp hidx
    exact hback (hbk ▸ hidle)

/-- Where a backlogged model wins against every idle one, no idle model is chosen. -/
theorem backlogged_of_argmax (hbest : best ∈ s.models.argmax s.score) {m : String}
    (hm : m ∈ s.models) (hback : s.queueOf m ≠ [])
    (hwins : ∀ k ∈ s.models, s.queueOf k = [] →
      -1 < s.balance m ∨ s.balance m = -1 ∧ s.models.idxOf m < s.models.idxOf k) :
    s.queueOf best ≠ [] := by
  intro hidle
  have hle := List.le_of_mem_argmax hm hbest
  rw [score_of_idle hidle, score_of_backlogged hback] at hle
  rcases hwins best (List.argmax_mem hbest) hidle with hlt | ⟨heq, hidx⟩
  · exact absurd hlt (not_lt.mpr hle)
  · have hsame : s.score best ≤ s.score m := by
      rw [score_of_idle hidle, score_of_backlogged hback, heq]
    exact absurd hidx (not_lt.mpr (List.index_of_argmax hbest hm hsame))

/-- With heaps for queues, a call meets its contract exactly when some backlogged model wins. -/
theorem serves_iff (h : s.Heaped) (op : Op) : s.Serves op ↔ s.BacklogWins op := by
  cases op with
  | enqueue request => exact Iff.rfl
  | refillTokens => exact Iff.rfl
  | dequeueFair =>
    show (_ → _) ∧ (_ → _) ↔ _ ∧ (_ → _)
    obtain ⟨hnil, e, hd⟩ | ⟨best, hbest, hidle, hd⟩ | ⟨best, hbest, request, rest, hpop, hd⟩ :=
      s.dequeueFair_cases
    · -- there is no model, so no queue, and the call raises
      refine iff_of_false (fun hserves => ?_) fun hwins => hwins.1 hnil
      have hnone : s.dequeueFair = (.ok none, s) :=
        hserves.1 fun m hm => by rw [hnil] at hm; cases hm
      rw [hd] at hnone
      cases hnone
    · constructor
      · rintro ⟨-, hbacklog⟩
        refine ⟨List.ne_nil_of_mem (List.argmax_mem hbest), fun hback => ?_⟩
        obtain ⟨best', -, request, s', hd', -⟩ := hbacklog hback
        rw [hd] at hd'
        cases hd'
      · rintro ⟨-, hwins⟩
        refine ⟨fun _ => hd, fun hback => ?_⟩
        obtain ⟨m, hm, hmback, hmwins⟩ := hwins hback
        exact absurd hidle (backlogged_of_argmax hbest hm hmback hmwins)
    · have hback := ne_nil_of_heappop ScheduledRequest.lt hpop
      have hmem := List.argmax_mem hbest
      refine iff_of_true ⟨fun hempty => absurd (hempty best hmem) hback, fun _ =>
        servesBest_of_serve h hbest hpop hd⟩ ⟨List.ne_nil_of_mem hmem, fun _ => ?_⟩
      exact ⟨best, hmem, hback, fun k hk hidle => wins_of_argmax hbest hback hk hidle⟩

end Choice

/-- **Work conservation.** Every `dequeue_fair` of a run returns `None` exactly when all queues are
empty and else serves a best request and charges for it alone, exactly when there is a model and at
every `dequeue_fair` with a backlog some backlogged model wins against every idle one. -/
theorem workConserving_iff (models : List String) (tr : List Op) :
    (∀ pre op, pre ++ [op] <+: tr → (run step (init models) pre).Serves op) ↔
      Along step BacklogWins (init models) tr := by
  rw [along_iff_forall]
  exact forall_congr' fun pre => forall_congr' fun op => imp_congr_right fun _ =>
    serves_iff (heaped_run models pre) op

/-- A request for the model `"a"` that takes 3 seconds. -/
def threeSeconds (requestId : String) : ScheduledRequest :=
  { priority := 2, requestId, modelId := "a", timestamp := 0, estimatedComputeMs := 3000 }

/-- Two requests are queued and the first one is served. -/
def charged : FairShareScheduler :=
  run step (init ["a", "b"])
    [.enqueue (threeSeconds "r1"), .enqueue (threeSeconds "r2"), .dequeueFair]

/-- The first request takes the balance to `-2`; the idle model `"b"` then keeps the second one from
being served. -/
theorem charged_starves :
    charged.queueOf "a" = [threeSeconds "r2"] ∧ charged.ReturnsNone ∧
      ¬ charged.Serves .dequeueFair := by
  have hqueue : charged.queueOf "a" = [threeSeconds "r2"] := by decide +kernel
  have hbest : charged.models.argmax charged.score = some "b" := by decide +kernel
  have hidle : charged.queueOf "b" = [] := by decide +kernel
  have hnone : charged.ReturnsNone := by
    unfold ReturnsNone dequeueFair
    rw [hbest]
    dsimp only
    rw [hidle]
    rfl
  refine ⟨hqueue, hnone, fun hserves => ?_⟩
  have hback : ∃ m ∈ charged.models, charged.queueOf m ≠ [] :=
    ⟨"a", List.mem_cons_self, by rw [hqueue]; exact List.cons_ne_nil _ _⟩
  obtain ⟨best, -, request, s', hd, -⟩ := hserves.2 hback
  rw [hnone] at hd
  cases hd

end FairShareScheduler

end PyStreamAI
