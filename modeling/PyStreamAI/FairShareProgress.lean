import Mathlib.Algebra.Order.BigOperators.Group.Finset
import Mathlib.Algebra.Order.Floor.Defs
import Mathlib.Data.Rat.Floor
import PyStreamAI.FairShareLag
import PyStreamAI.FairShareService

/-!
# Ledgers and progress of the fair-share scheduler

What a model was sent is what it was served and what waits in its queue, and its balance is what it
earned less what it was served (`ledger_run`). A backlogged model whose balance is above `-1` is not
overtaken for ever: each other model is served only while it is ahead, and every service takes it
down by at least the cheapest cost (`served_within`).
-/

open Py Machine Heapq

namespace PyStreamAI

/-- Scheduler statistics. -/
structure FairShareStats where
  modelTokens : Dict String ℚ
  queueSizes : Dict String ℕ

namespace FairShareScheduler

def getStats (s : FairShareScheduler) : FairShareStats where
  modelTokens := s.modelTokens
  queueSizes := s.models.foldl (fun sizes m => sizes.set m (s.queueOf m).length) ∅

theorem get?_queueSizes (s : FairShareScheduler) {m : String} (hm : m ∈ s.models) :
    s.getStats.queueSizes.get? m = some (s.queueOf m).length := by
  have hfold : ∀ (ms : List String) (sizes : Dict String ℕ),
      (ms.foldl (fun sizes m => sizes.set m (s.queueOf m).length) sizes).get? m =
        if m ∈ ms then some (s.queueOf m).length else sizes.get? m := by
    intro ms
    induction ms with
    | nil => intro sizes; simp
    | cons k ms ih =>
      intro sizes
      rw [List.foldl_cons, ih, Dict.get?_set]
      by_cases hmk : m = k
      · simp [hmk]
      · simp [hmk]
  exact (hfold s.models ∅).trans (if_pos hm)

/-! ## The ledger -/

/-- The request a call accepts. -/
def emitAccepted (s : FairShareScheduler) : Op → List ScheduledRequest
  | .enqueue request => if (s.enqueue request).1 then [request] else []
  | .dequeueFair => []
  | .refillTokens => []

/-- The requests accepted in a history. -/
def accepted (s : FairShareScheduler) (tr : List Op) : List ScheduledRequest :=
  log step emitAccepted s tr

/-- The accepted requests for the model `m`. -/
def acceptedFor (s : FairShareScheduler) (tr : List Op) (m : String) : List ScheduledRequest :=
  (accepted s tr).filter (·.modelId = m)

/-- The requests served for the model `m`. -/
def servedFor (s : FairShareScheduler) (tr : List Op) (m : String) : List ScheduledRequest :=
  ((served s tr).filter (·.2 = m)).map Prod.fst

/-- The number of calls of `refill_tokens`. -/
def refills (tr : List Op) : ℕ := tr.countP fun op => match op with
  | .refillTokens => true
  | _ => false

theorem acceptedFor_snoc (s : FairShareScheduler) (tr : List Op) (op : Op) (m : String) :
    acceptedFor s (tr ++ [op]) m =
      acceptedFor s tr m ++ (emitAccepted (run step s tr) op).filter (·.modelId = m) := by
  unfold acceptedFor accepted
  rw [log_snoc, List.filter_append]

theorem servedFor_snoc (s : FairShareScheduler) (tr : List Op) (op : Op) (m : String) :
    servedFor s (tr ++ [op]) m =
      servedFor s tr m ++ ((emitServed (run step s tr) op).filter (·.2 = m)).map Prod.fst := by
  unfold servedFor
  rw [served_snoc, List.filter_append, List.map_append]

/-- `enqueue` pushes onto the heap of a known model, or refuses and changes nothing. -/
theorem enqueue_cases (s : FairShareScheduler) (request : ScheduledRequest) :
    ((s.enqueue request).1 = true ∧ ∀ m, (s.enqueue request).2.queueOf m =
        if m = request.modelId then heappush ScheduledRequest.lt (s.queueOf m) request
        else s.queueOf m) ∨
      s.enqueue request = (false, s) := by
  unfold enqueue
  split_ifs with hknown
  · refine Or.inl ⟨rfl, fun m => ?_⟩
    refine (Dict.getD_set _ _ _ _ _).trans ?_
    by_cases hm : m = request.modelId
    · rw [if_pos hm, if_pos hm, hm]
    · rw [if_neg hm, if_neg hm]
      rfl
  · exact Or.inr rfl

/-- One call moves requests of a model between its queue and the outside. -/
theorem queue_step (s : FairShareScheduler) (op : Op) (m : String) :
    (s.queueOf m ++ (emitAccepted s op).filter (·.modelId = m)).Perm
      (((emitServed s op).filter (·.2 = m)).map Prod.fst ++ (step s op).queueOf m) := by
  cases op with
  | refillTokens =>
    show (s.queueOf m ++ []).Perm (s.queueOf m)
    rw [List.append_nil]
  | enqueue request =>
    show (s.queueOf m ++ (if (s.enqueue request).1 then [request] else []).filter _).Perm
      ((s.enqueue request).2.queueOf m)
    rcases s.enqueue_cases request with ⟨haccept, hqueue⟩ | hrefuse
    · rw [haccept, hqueue, if_pos rfl]
      by_cases hm : m = request.modelId
      · rw [if_pos hm, List.filter_cons_of_pos (by simp [hm]), List.filter_nil]
        exact List.perm_append_comm.trans (heappush_perm _ _ _).symm
      · rw [if_neg hm, List.filter_cons_of_neg (by simpa using Ne.symm hm), List.filter_nil,
          List.append_nil]
    · rw [hrefuse]
      simp
  | dequeueFair =>
    show (s.queueOf m ++ []).Perm (_ ++ s.dequeueFair.2.queueOf m)
    rw [List.append_nil]
    obtain ⟨-, e, h⟩ | ⟨best, -, -, h⟩ | ⟨best, -, request, rest, hpop, h⟩ := s.dequeueFair_cases
    · unfold emitServed
      rw [h]
      simp
    · unfold emitServed
      rw [h]
      simp
    · rw [emitServed_of_serve h, h]
      dsimp only
      rw [queueOf_serve]
      by_cases hm : m = best
      · rw [if_pos hm, List.filter_cons_of_pos (by simp [hm]), hm]
        exact heappop_perm ScheduledRequest.lt hpop
      · rw [if_neg hm, List.filter_cons_of_neg (by simpa using Ne.symm hm)]
        simp

/-- What a model was sent is what it was served and what waits. -/
theorem queue_run (models : List String) (tr : List Op) (m : String) :
    (acceptedFor (init models) tr m).Perm
      (servedFor (init models) tr m ++ (run step (init models) tr).queueOf m) := by
  induction tr using List.reverseRecOn with
  | nil =>
    have hempty : (init models).queueOf m = [] := Dict.getD_ofKeys models [] m
    show List.Perm [] ([] ++ (init models).queueOf m)
    rw [hempty]
    exact List.Perm.refl _
  | append_singleton tr op ih =>
    rw [acceptedFor_snoc, servedFor_snoc, run_snoc]
    have hstep := queue_step (run step (init models) tr) op m
    refine (ih.append_right _).trans ?_
    rw [List.append_assoc, List.append_assoc]
    exact hstep.append_left _

/-- A request is served for its own model. -/
theorem modelId_of_served (models : List String) (tr : List Op) (m : String) :
    ∀ r ∈ servedFor (init models) tr m, r.modelId = m := by
  intro r hr
  have hmem := (queue_run models tr m).mem_iff.mpr (List.mem_append_left _ hr)
  simpa using (List.mem_filter.mp hmem).2

theorem tokenRate_step (s : FairShareScheduler) (op : Op) : (step s op).tokenRate = s.tokenRate := by
  cases op with
  | refillTokens => rfl
  | enqueue request =>
    show (s.enqueue request).2.tokenRate = _
    unfold enqueue
    split_ifs <;> rfl
  | dequeueFair =>
    show s.dequeueFair.2.tokenRate = _
    obtain ⟨-, e, h⟩ | ⟨best, -, -, h⟩ | ⟨best, -, request, rest, -, h⟩ := s.dequeueFair_cases
    · rw [h]
    · rw [h]
    · rw [h]
      rfl

theorem tokenRate_run (models : List String) (tr : List Op) :
    (run step (init models) tr).tokenRate = 1 :=
  run_invariant (I := fun s : FairShareScheduler => s.tokenRate = 1) rfl
    (fun s h op => (tokenRate_step s op).trans h) tr

theorem refills_snoc (tr : List Op) (op : Op) :
    refills (tr ++ [op]) = refills tr + refills [op] := by
  unfold refills
  rw [List.countP_append]

/-- A balance is what the model earned less what it was served. -/
theorem balance_run {models : List String} (hn : models.Nodup) {m : String} (hm : m ∈ models)
    (tr : List Op) :
    (run step (init models) tr).balance m =
      1 + refills tr - computeOf m (served (init models) tr) := by
  induction tr using List.reverseRecOn with
  | nil =>
    have hone : (init models).balance m = 1 := by
      obtain ⟨v, hv⟩ := Dict.mem_keys_iff.mp ((init models).keys_modelTokens m hm)
      have hget := Dict.getD_ofKeys models (1 : ℚ) m
      unfold balance Dict.getD
      rw [hv]
      unfold Dict.getD at hget
      rw [show (Dict.ofKeys models (1 : ℚ)).get? m = some v from hv] at hget
      exact hget
    show (init models).balance m = 1 + ((0 : ℕ) : ℚ) - 0
    rw [hone]
    norm_num
  | append_singleton tr op ih =>
    have hmodels : (run step (init models) tr).models = models := models_run (init models) tr
    have hcredit := credit_step (hmodels.symm ▸ hn) (hmodels.symm ▸ hm) op
    have hearned : earned (run step (init models) tr) op = refills [op] := by
      cases op with
      | refillTokens =>
        show (run step (init models) tr).tokenRate = ((1 : ℕ) : ℚ)
        rw [tokenRate_run, Nat.cast_one]
      | enqueue request => exact Nat.cast_zero.symm
      | dequeueFair => exact Nat.cast_zero.symm
    rw [run_snoc, served_snoc, computeOf_append, refills_snoc, Nat.cast_add]
    linarith

theorem computeOf_eq (m : String) (evs : List (ScheduledRequest × String)) :
    computeOf m evs = ((evs.filter (·.2 = m)).map fun p => cost p.1).sum := by
  unfold computeOf
  induction evs with
  | nil => rfl
  | cons p evs ih =>
    rw [List.map_cons, List.sum_cons, ih]
    by_cases hp : p.2 = m
    · simp [hp]
    · simp [hp]

theorem get?_modelTokens (s : FairShareScheduler) {m : String} (hm : m ∈ s.models) :
    s.getStats.modelTokens.get? m = some (s.balance m) := by
  obtain ⟨v, hv⟩ := Dict.mem_keys_iff.mp (s.keys_modelTokens m hm)
  show s.modelTokens.get? m = some ((s.modelTokens.get? m).getD 0)
  rw [hv]
  rfl

/-- In every history over distinct models, the requests sent to a model are those it was served,
each for itself, and those that wait; the statistics report as its tokens one for the start and one
a refill less what it was served, and as its queue size what it was sent less what it was served. -/
theorem ledger_run {models : List String} (hn : models.Nodup) {m : String} (hm : m ∈ models)
    (tr : List Op) :
    let s := run step (init models) tr
    let accepted := acceptedFor (init models) tr m
    let served := servedFor (init models) tr m
    accepted.Perm (served ++ s.queueOf m) ∧
    (∀ r ∈ served, r.modelId = m) ∧
    s.getStats.modelTokens.get? m = some (1 + refills tr - (served.map cost).sum) ∧
    s.getStats.queueSizes.get? m = some (accepted.length - served.length) ∧
    served.length ≤ accepted.length := by
  intro s accepted served
  have hmem : m ∈ s.models := by
    rw [show s.models = models from models_run (init models) tr]
    exact hm
  have hperm := queue_run models tr m
  have hlength : accepted.length = served.length + (s.queueOf m).length := by
    rw [← List.length_append]
    exact hperm.length_eq
  refine ⟨hperm, modelId_of_served models tr m, ?_, ?_, by omega⟩
  · rw [get?_modelTokens s hmem, balance_run hn hm, computeOf_eq]
    unfold served servedFor
    rw [List.map_map]
    rfl
  · rw [get?_queueSizes s hmem]
    congr 1
    omega

/-- A model that is sent two requests and served one. -/
theorem ledger_run_two :
    let request (requestId : String) : ScheduledRequest :=
      { priority := 0, requestId, modelId := "a", timestamp := 0 }
    let tr : List Op :=
      [.enqueue (request "r1"), .enqueue (request "r2"), .refillTokens, .dequeueFair]
    let s := run step (init ["a", "b"]) tr
    let accepted := acceptedFor (init ["a", "b"]) tr "a"
    let served := servedFor (init ["a", "b"]) tr "a"
    accepted.Perm (served ++ s.queueOf "a") ∧
    (∀ r ∈ served, r.modelId = "a") ∧
    s.getStats.modelTokens.get? "a" = some (1 + refills tr - (served.map cost).sum) ∧
    s.getStats.queueSizes.get? "a" = some (accepted.length - served.length) ∧
    served.length ≤ accepted.length :=
  ledger_run (by decide) (by decide) _

/-! ## Progress -/

/-- The number of calls of `dequeue_fair`. -/
def dequeues (tr : List Op) : ℕ := tr.countP fun op => match op with
  | .dequeueFair => true
  | _ => false

/-- How often a model was served. -/
def services (m : String) (evs : List (ScheduledRequest × String)) : ℕ :=
  (evs.map Prod.snd).count m

/-- How often the other models can be served before `i` is, when every request costs at least
`c`. -/
def overtakes (s : FairShareScheduler) (i : String) (c : ℚ) : ℕ :=
  ∑ j ∈ s.models.toFinset.erase i, (⌊s.gap j i / c⌋ + 1).toNat

theorem dequeues_snoc (tr : List Op) (op : Op) :
    dequeues (tr ++ [op]) = dequeues tr + dequeues [op] := by
  unfold dequeues
  rw [List.countP_append]

theorem services_append (m : String) (evs evs' : List (ScheduledRequest × String)) :
    services m (evs ++ evs') = services m evs + services m evs' := by
  unfold services
  rw [List.map_append, List.count_append]

/-- Services of at least `c` each add up. -/
theorem services_mul_le {c : ℚ} (m : String) {evs : List (ScheduledRequest × String)}
    (hcost : ∀ p ∈ evs, c ≤ cost p.1) : services m evs * c ≤ computeOf m evs := by
  induction evs with
  | nil => simp [services, computeOf]
  | cons p evs ih =>
    have htail := ih fun q hq => hcost q (List.mem_cons_of_mem p hq)
    have hp := hcost p List.mem_cons_self
    have hcompute : computeOf m (p :: evs) = (if p.2 = m then cost p.1 else 0) + computeOf m evs :=
      List.sum_cons
    rw [hcompute]
    unfold services at htail ⊢
    rw [List.map_cons, List.count_cons]
    by_cases hm : p.2 = m
    · rw [if_pos hm, if_pos (by simpa using hm)]
      push_cast
      linarith
    · rw [if_neg hm, if_neg (by simpa using hm)]
      push_cast
      linarith

theorem computeOf_of_services {m : String} {evs : List (ScheduledRequest × String)}
    (h : services m evs = 0) : computeOf m evs = 0 := by
  have hnone : ∀ p ∈ evs, p.2 ≠ m := by
    intro p hp hm
    exact List.count_eq_zero.mp h (List.mem_map.mpr ⟨p, hp, hm⟩)
  rw [computeOf_eq, List.filter_eq_nil_iff.mpr (by simpa using hnone)]
  rfl

/-- What holds while `i` waits and is not served: it stays ahead of idle models, every call of
`dequeue_fair` serves another model, and a model was served again only while it was ahead. -/
structure Waits (s : FairShareScheduler) (i : String) (c : ℚ) (tr : List Op) : Prop where
  queue : (run step s tr).queueOf i ≠ []
  balance : -1 < (run step s tr).balance i
  all_served : dequeues tr = (served s tr).length
  members : ∀ p ∈ served s tr, p.2 ∈ s.models
  ahead : ∀ j ∈ s.models, j ≠ i → services j (served s tr) ≠ 0 →
    ((services j (served s tr) : ℚ) - 1) * c ≤ s.gap j i

theorem queueOf_enqueue_ne_nil {s : FairShareScheduler} {i : String} (h : s.queueOf i ≠ [])
    (request : ScheduledRequest) : (s.enqueue request).2.queueOf i ≠ [] := by
  rcases s.enqueue_cases request with ⟨-, hqueue⟩ | hrefuse
  · rw [hqueue]
    split_ifs
    · intro hnil
      have hperm := heappush_perm ScheduledRequest.lt (s.queueOf i) request
      rw [hnil] at hperm
      exact absurd hperm.length_eq (by simp)
    · exact h
  · rw [hrefuse]
    exact h

/-- A model ahead of every idle one keeps `dequeue_fair` from finding nothing. -/
theorem serves_of_balance {s : FairShareScheduler} {i : String} (hi : i ∈ s.models)
    (hqueue : s.queueOf i ≠ []) (hbalance : -1 < s.balance i) :
    ∃ best ∈ s.models.argmax s.score, s.queueOf best ≠ [] ∧ ∃ request rest,
      s.dequeueFair = (.ok (some (request, best)), s.serve best request rest) := by
  obtain ⟨hnil, -⟩ | ⟨best, hbest, hidle, -⟩ | ⟨best, hbest, request, rest, hpop, h⟩ :=
    s.dequeueFair_cases
  · rw [hnil] at hi
    cases hi
  · have hle := List.le_of_mem_argmax hi hbest
    rw [score_of_idle hidle, score_of_backlogged hqueue] at hle
    exact absurd hbalance (not_lt.mpr hle)
  · exact ⟨best, hbest, ne_nil_of_heappop _ hpop, request, rest, h⟩

section Progress

variable {s : FairShareScheduler} {i : String} {c : ℚ} {tr : List Op}

theorem Waits.dequeue (hn : s.models.Nodup) (hi : i ∈ s.models)
    (hcost : ∀ p ∈ served s tr, c ≤ cost p.1) (h : Waits s i c tr)
    (hnone : services i (served s (tr ++ [.dequeueFair])) = 0) :
    Waits s i c (tr ++ [.dequeueFair]) := by
  have hmodels := models_run s tr
  obtain ⟨best, hbest, hback, request, rest, hd⟩ :=
    serves_of_balance (hmodels.symm ▸ hi) h.queue h.balance
  have hmem : best ∈ s.models := hmodels ▸ List.argmax_mem hbest
  have hemit := emitServed_of_serve hd
  rw [served_snoc, hemit, services_append] at hnone
  have hne : best ≠ i := by
    rintro rfl
    have hone : services best [(request, best)] = 1 := by simp [services]
    omega
  have hrun : run step s (tr ++ [.dequeueFair]) = (run step s tr).serve best request rest := by
    rw [run_snoc]
    show (run step s tr).dequeueFair.2 = _
    rw [hd]
  refine ⟨?_, ?_, ?_, ?_, fun j hj hji hserved => ?_⟩
  · rw [hrun, queueOf_serve, if_neg hne.symm]
    exact h.queue
  · rw [hrun, balance_serve, if_neg hne.symm]
    exact h.balance
  · rw [dequeues_snoc, served_snoc, hemit, List.length_append, h.all_served]
    rfl
  · rw [served_snoc, hemit]
    intro p hp
    rcases List.mem_append.mp hp with hp | hp
    · exact h.members p hp
    · rw [List.mem_singleton.mp hp]
      exact hmem
  · rw [served_snoc, hemit, services_append] at hserved ⊢
    by_cases hjb : j = best
    · subst hjb
      -- `best` is ahead of `i` now, so what it was served so far is at most its first lead
      have hlead := balance_le_of_argmax _ hbest hback (hmodels.symm ▸ hi) h.queue
      have hledger := gap_run hn hj hi tr
      have hi0 : computeOf i (served s tr) = 0 := computeOf_of_services (by omega)
      have hle := services_mul_le j hcost
      have hone : services j [(request, j)] = 1 := by simp [services]
      rw [hone]
      unfold gap at hledger ⊢
      push_cast
      linarith
    · have hzero : services j [(request, best)] = 0 := by
        simp [services, Ne.symm hjb]
      rw [hzero, Nat.add_zero] at hserved ⊢
      exact h.ahead j hj hji hserved

theorem Waits.snoc (hn : s.models.Nodup) (hi : i ∈ s.models) (hrate : 0 ≤ s.tokenRate)
    (hcost : ∀ p ∈ served s tr, c ≤ cost p.1) (h : Waits s i c tr) (op : Op)
    (hnone : services i (served s (tr ++ [op])) = 0) : Waits s i c (tr ++ [op]) := by
  have hmodels := models_run s tr
  cases op with
  | dequeueFair => exact h.dequeue hn hi hcost hnone
  | enqueue request =>
    have hserved : served s (tr ++ [.enqueue request]) = served s tr := by
      rw [served_snoc]
      exact List.append_nil _
    refine ⟨?_, ?_, ?_, by rw [hserved]; exact h.members, by rw [hserved]; exact h.ahead⟩
    · rw [run_snoc]
      exact queueOf_enqueue_ne_nil h.queue request
    · rw [run_snoc]
      show -1 < ((run step s tr).enqueue request).2.balance i
      rw [balance_enqueue]
      exact h.balance
    · rw [dequeues_snoc, hserved, ← h.all_served]
      rfl
  | refillTokens =>
    have hserved : served s (tr ++ [.refillTokens]) = served s tr := by
      rw [served_snoc]
      exact List.append_nil _
    refine ⟨?_, ?_, ?_, by rw [hserved]; exact h.members, by rw [hserved]; exact h.ahead⟩
    · rw [run_snoc]
      exact h.queue
    · rw [run_snoc]
      show -1 < (run step s tr).refillTokens.balance i
      rw [balance_refillTokens (hmodels.symm ▸ hn) (hmodels.symm ▸ hi)]
      have hstay : (run step s tr).tokenRate = s.tokenRate :=
        run_invariant (I := fun s' : FairShareScheduler => s'.tokenRate = s.tokenRate) rfl
          (fun s' h' op => (tokenRate_step s' op).trans h') tr
      rw [hstay]
      have hbalance := h.balance
      linarith
    · rw [dequeues_snoc, hserved, ← h.all_served]
      rfl

theorem waits_run (hn : s.models.Nodup) (hi : i ∈ s.models) (hrate : 0 ≤ s.tokenRate)
    (hqueue : s.queueOf i ≠ []) (hbalance : -1 < s.balance i)
    (hcost : ∀ p ∈ served s tr, c ≤ cost p.1) (hnone : services i (served s tr) = 0) :
    Waits s i c tr := by
  induction tr using List.reverseRecOn with
  | nil =>
    exact ⟨hqueue, hbalance, rfl, fun p hp => absurd hp List.not_mem_nil,
      fun j _ _ h => absurd rfl h⟩
  | append_singleton tr op ih =>
    have hcost' : ∀ p ∈ served s tr, c ≤ cost p.1 := fun p hp => hcost p (by
      rw [served_snoc]
      exact List.mem_append_left _ hp)
    have hnone' : services i (served s tr) = 0 := by
      rw [served_snoc, services_append] at hnone
      omega
    exact (ih hcost' hnone').snoc hn hi hrate hcost' op hnone

/-- A model is served at most once more than its lead allows. -/
theorem Waits.services_le (h : Waits s i c tr) (hc : 0 < c) {j : String} (hj : j ∈ s.models)
    (hji : j ≠ i) : services j (served s tr) ≤ (⌊s.gap j i / c⌋ + 1).toNat := by
  by_cases hzero : services j (served s tr) = 0
  · rw [hzero]
    exact Nat.zero_le _
  · have hle := h.ahead j hj hji hzero
    have hfloor : ((services j (served s tr) : ℤ) - 1) ≤ ⌊s.gap j i / c⌋ := by
      rw [Int.le_floor, le_div_iff₀ hc]
      push_cast
      exact hle
    omega

/-- A waiting model sees at most `overtakes` calls of `dequeue_fair`. -/
theorem Waits.dequeues_le (h : Waits s i c tr) (hc : 0 < c)
    (hnone : services i (served s tr) = 0) : dequeues tr ≤ s.overtakes i c := by
  rw [h.all_served]
  have hcard : ∑ j ∈ s.models.toFinset, services j (served s tr) = (served s tr).length := by
    have hsum := Multiset.sum_count_eq_card (s := s.models.toFinset)
      (m := Multiset.ofList ((served s tr).map Prod.snd)) (fun m hm => by
        obtain ⟨p, hp, rfl⟩ := List.mem_map.mp (Multiset.mem_coe.mp hm)
        exact List.mem_toFinset.mpr (h.members p hp))
    simpa [services] using hsum
  rw [← hcard]
  unfold overtakes
  rw [← Finset.sum_erase s.models.toFinset (a := i) hnone]
  refine Finset.sum_le_sum fun j hj => ?_
  exact h.services_le hc (List.mem_toFinset.mp (Finset.mem_of_mem_erase hj))
    (Finset.ne_of_mem_erase hj)

end Progress

/-- **Progress.** From any reachable scheduler, a model with a pending request and a balance above
`-1` is served within `overtakes` calls of `dequeue_fair` and one more, whatever is enqueued and
refilled meanwhile, provided the requests served cost at least some `c > 0` each. -/
theorem served_within {models : List String} (hn : models.Nodup) {i : String} (hi : i ∈ models)
    (pre tr : List Op) {c : ℚ} (hc : 0 < c)
    (hqueue : (run step (init models) pre).queueOf i ≠ [])
    (hbalance : -1 < (run step (init models) pre).balance i)
    (hcost : ∀ p ∈ served (run step (init models) pre) tr, c ≤ cost p.1)
    (hlong : overtakes (run step (init models) pre) i c < dequeues tr) :
    ∃ p ∈ served (run step (init models) pre) tr, p.2 = i := by
  by_contra hno
  have hmodels : (run step (init models) pre).models = models := models_run (init models) pre
  have hnone : services i (served (run step (init models) pre) tr) = 0 := by
    refine List.count_eq_zero.mpr fun hmem => ?_
    obtain ⟨p, hp, hpi⟩ := List.mem_map.mp hmem
    exact hno ⟨p, hp, hpi⟩
  have hw := waits_run (hmodels.symm ▸ hn) (hmodels.symm ▸ hi)
    (by rw [tokenRate_run]; exact zero_le_one) hqueue hbalance hcost hnone
  have hle := hw.dequeues_le hc hnone
  omega

/-- The model `b` waits behind two requests of `a`, and is served by the second call. -/
theorem served_within_two :
    let request (m : String) : ScheduledRequest :=
      { priority := 0, requestId := "r", modelId := m, timestamp := 0 }
    let pre : List Op := [.enqueue (request "a"), .enqueue (request "a"), .enqueue (request "b")]
    ∃ p ∈ served (run step (init ["a", "b"]) pre) [.dequeueFair, .dequeueFair], p.2 = "b" :=
  served_within (c := 1 / 100) (by decide) (by decide) _ _ (by norm_num) (by decide +kernel)
    (by decide +kernel) (by decide +kernel) (by decide +kernel)

end FairShareScheduler

end PyStreamAI
