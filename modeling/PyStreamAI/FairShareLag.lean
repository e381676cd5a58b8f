import Mathlib.Tactic.Linarith
import PyStreamAI.FairShare

/-!
# The lag between backlogged models

While two models both wait whenever a request is dequeued, only the one ahead is charged, so the
difference of their balances stays within the larger of its first value and the dearest request
(`abs_gap_le`). What a model is served is what its balance lost (`credit_step`), so the bound on the
balances is a bound on the service (`lag_le`).
-/

open Py Machine

namespace PyStreamAI

namespace FairShareScheduler

theorem abs_charge_le {x y c B : ℚ} (hle : y ≤ x) (hgap : |x - y| ≤ B) (hc : 0 ≤ c) (hcB : c ≤ B) :
    |x - c - y| ≤ B := by
  rw [abs_of_nonneg (sub_nonneg.mpr hle)] at hgap
  apply abs_le.mpr
  constructor <;> linarith

variable (s : FairShareScheduler)

/-- By how much the balance of `i` exceeds that of `j`. -/
def gap (i j : String) : ℚ := s.balance i - s.balance j

/-- The tokens of compute served for the model `m`. -/
def computeOf (m : String) (evs : List (ScheduledRequest × String)) : ℚ :=
  (evs.map fun p => if p.2 = m then cost p.1 else 0).sum

/-- What a call adds to every balance. -/
def earned : Op → ℚ
  | .refillTokens => s.tokenRate
  | _ => 0

theorem computeOf_append (m : String) (evs evs' : List (ScheduledRequest × String)) :
    computeOf m (evs ++ evs') = computeOf m evs + computeOf m evs' := by
  simp [computeOf]

/-- The model of a request that is served had the most tokens among the models that wait. -/
theorem balance_le_of_argmax {best m : String} (hbest : best ∈ s.models.argmax s.score)
    (hqueue : s.queueOf best ≠ []) (hm : m ∈ s.models) (hwait : s.queueOf m ≠ []) :
    s.balance m ≤ s.balance best := by
  have hscore := List.le_of_mem_argmax hm hbest
  unfold score at hscore
  rwa [if_pos hwait, if_pos hqueue] at hscore

variable {s}

theorem credit_step (hn : s.models.Nodup) {m : String} (hm : m ∈ s.models) (op : Op) :
    (step s op).balance m + computeOf m (emitServed s op) = s.balance m + earned s op := by
  cases op with
  | enqueue request =>
    show (s.enqueue request).2.balance m + 0 = s.balance m + 0
    rw [balance_enqueue]
  | dequeueFair =>
    show s.dequeueFair.2.balance m + computeOf m (emitServed s .dequeueFair) = s.balance m + 0
    obtain ⟨-, e, h⟩ | ⟨best, -, -, h⟩ | ⟨best, -, request, rest, -, h⟩ := s.dequeueFair_cases
    · unfold emitServed
      rw [h]
      rfl
    · unfold emitServed
      rw [h]
      rfl
    · rw [emitServed_of_serve h, h, balance_serve]
      by_cases hbest : m = best
      · simp [computeOf, hbest]
      · simp [computeOf, hbest, Ne.symm hbest]
  | refillTokens =>
    show s.refillTokens.balance m + 0 = s.balance m + s.tokenRate
    rw [balance_refillTokens hn hm, add_zero]

theorem gap_run (hn : s.models.Nodup) {i j : String} (hi : i ∈ s.models) (hj : j ∈ s.models)
    (tr : List Op) :
    (run step s tr).gap i j + (computeOf i (served s tr) - computeOf j (served s tr)) =
      s.gap i j := by
  induction tr using List.reverseRecOn with
  | nil =>
    show s.gap i j + (0 - 0) = s.gap i j
    rw [sub_zero, add_zero]
  | append_singleton tr op ih =>
    have hmodels := models_run s tr
    have hstepi := credit_step (hmodels ▸ hn) (hmodels.symm ▸ hi) op
    have hstepj := credit_step (hmodels ▸ hn) (hmodels.symm ▸ hj) op
    rw [run_snoc, served_snoc, computeOf_append, computeOf_append]
    unfold gap at ih ⊢
    linarith

/-- Both models have pending requests before a `dequeue_fair`. -/
def BothWait (i j : String) (s : FairShareScheduler) : Op → Prop
  | .dequeueFair => s.queueOf i ≠ [] ∧ s.queueOf j ≠ []
  | _ => True

instance (i j : String) (s : FairShareScheduler) : (op : Op) → Decidable (BothWait i j s op)
  | .dequeueFair => inferInstanceAs (Decidable (s.queueOf i ≠ [] ∧ s.queueOf j ≠ []))
  | .enqueue _ => isTrue trivial
  | .refillTokens => isTrue trivial

/-- Of two waiting models only the one that is ahead can be the best one and is charged. -/
theorem abs_gap_serve {best : String} {request : ScheduledRequest} {rest : List ScheduledRequest}
    (hbest : best ∈ s.models.argmax s.score) (hqueue : s.queueOf best ≠ []) {i j : String}
    (hi : i ∈ s.models) (hj : j ∈ s.models) (hwait : s.queueOf i ≠ [] ∧ s.queueOf j ≠ []) {B : ℚ}
    (hgap : |s.gap i j| ≤ B) (hnonneg : 0 ≤ cost request) (hle : cost request ≤ B) :
    |(s.serve best request rest).gap i j| ≤ B := by
  have hib := s.balance_le_of_argmax hbest hqueue hi hwait.1
  have hjb := s.balance_le_of_argmax hbest hqueue hj hwait.2
  unfold gap at *
  rw [balance_serve, balance_serve]
  split_ifs with hi' hj' hj'
  · rw [hi', hj', sub_self] at hgap
    rwa [sub_self]
  · subst hi'
    exact abs_charge_le hjb hgap hnonneg hle
  · subst hj'
    rw [abs_sub_comm] at hgap ⊢
    exact abs_charge_le hib hgap hnonneg hle
  · exact hgap

theorem abs_gap_step (hn : s.models.Nodup) {i j : String} (hi : i ∈ s.models) (hj : j ∈ s.models)
    {op : Op} (hwait : BothWait i j s op) {B : ℚ} (hgap : |s.gap i j| ≤ B)
    (hcost : ∀ p ∈ emitServed s op, 0 ≤ cost p.1 ∧ cost p.1 ≤ B) :
    |(step s op).gap i j| ≤ B := by
  cases op with
  | enqueue request =>
    show |(s.enqueue request).2.balance i - (s.enqueue request).2.balance j| ≤ B
    rwa [balance_enqueue, balance_enqueue]
  | dequeueFair =>
    show |s.dequeueFair.2.gap i j| ≤ B
    obtain ⟨-, e, h⟩ | ⟨best, -, -, h⟩ | ⟨best, hbest, request, rest, hpop, h⟩ :=
      s.dequeueFair_cases
    · rwa [h]
    · rwa [h]
    · obtain ⟨hnonneg, hle⟩ := hcost (request, best) (by
        rw [emitServed_of_serve h]
        exact List.mem_singleton.mpr rfl)
      rw [h]
      exact abs_gap_serve hbest (Heapq.ne_nil_of_heappop _ hpop) hi hj hwait hgap hnonneg hle
  | refillTokens =>
    show |s.refillTokens.balance i - s.refillTokens.balance j| ≤ B
    rwa [balance_refillTokens hn hi, balance_refillTokens hn hj, add_sub_add_right_eq_sub]

theorem abs_gap_le (hn : s.models.Nodup) {i j : String} (hi : i ∈ s.models) (hj : j ∈ s.models)
    {B : ℚ} (hgap : |s.gap i j| ≤ B) {tr : List Op} (hwait : Along step (BothWait i j) s tr)
    (hcost : ∀ p ∈ served s tr, 0 ≤ cost p.1 ∧ cost p.1 ≤ B) : |(run step s tr).gap i j| ≤ B := by
  induction tr using List.reverseRecOn with
  | nil => exact hgap
  | append_singleton tr op ih =>
    obtain ⟨htr, hop⟩ := along_snoc.mp hwait
    rw [served_snoc] at hcost
    have hmodels := models_run s tr
    rw [run_snoc]
    exact abs_gap_step (hmodels ▸ hn) (hmodels.symm ▸ hi) (hmodels.symm ▸ hj) hop
      (ih htr fun p hp => hcost p (List.mem_append_left _ hp))
      fun p hp => hcost p (List.mem_append_right _ hp)

/-- **Bounded lag.** In every stretch `tr` of every history in which two models wait before each
`dequeue_fair`, and whose served requests cost between `0` and `C`, the balances differ throughout
by at most the larger of their first difference and `C`, and neither model is served more than that
and the first difference ahead of the other. -/
theorem lag_le {models : List String} (hn : models.Nodup) {i j : String} (hi : i ∈ models)
    (hj : j ∈ models) (pre : List Op) {tr : List Op} {C : ℚ}
    (hwait : Along step (BothWait i j) (run step (init models) pre) tr)
    (hcost : ∀ p ∈ served (run step (init models) pre) tr, 0 ≤ cost p.1 ∧ cost p.1 ≤ C) :
    ∀ tr', tr' <+: tr →
      let s := run step (init models) pre
      let lag := max |s.gap i j| C
      |(run step s tr').gap i j| ≤ lag ∧
      computeOf i (served s tr') - computeOf j (served s tr') ≤ |s.gap i j| + lag ∧
      computeOf j (served s tr') - computeOf i (served s tr') ≤ |s.gap i j| + lag := by
  rintro tr' ⟨post, rfl⟩ s lag
  have hmodels : s.models = models := models_run (init models) pre
  have hserved : ∀ p ∈ served s tr', 0 ≤ cost p.1 ∧ cost p.1 ≤ lag := by
    intro p hp
    have hp' : p ∈ served s (tr' ++ post) := by
      unfold served
      rw [log_append]
      exact List.mem_append_left _ hp
    exact ⟨(hcost p hp').1, (hcost p hp').2.trans (le_max_right _ _)⟩
  have hgap : |(run step s tr').gap i j| ≤ lag :=
    abs_gap_le (hmodels.symm ▸ hn) (hmodels.symm ▸ hi) (hmodels.symm ▸ hj) (le_max_left _ _)
      (along_append.mp hwait).1 hserved
  have hledger := gap_run (hmodels.symm ▸ hn) (hmodels.symm ▸ hi) (hmodels.symm ▸ hj) tr'
  obtain ⟨hlow, hhigh⟩ := abs_le.mp hgap
  refine ⟨hgap, ?_, ?_⟩
  · linarith [le_abs_self (s.gap i j)]
  · linarith [neg_abs_le (s.gap i j)]

/-- Two requests of 10 ms for `a` and one for `b`: each model is served once. -/
theorem lag_le_two :
    let request (m : String) : ScheduledRequest :=
      { priority := 0, requestId := "r", modelId := m, timestamp := 0 }
    let pre : List Op := [.enqueue (request "a"), .enqueue (request "a"), .enqueue (request "b")]
    ∀ tr', tr' <+: [Op.dequeueFair, .dequeueFair] →
      let s := run step (init ["a", "b"]) pre
      let lag := max |s.gap "a" "b"| (1 / 100)
      |(run step s tr').gap "a" "b"| ≤ lag ∧
      computeOf "a" (served s tr') - computeOf "b" (served s tr') ≤ |s.gap "a" "b"| + lag ∧
      computeOf "b" (served s tr') - computeOf "a" (served s tr') ≤ |s.gap "a" "b"| + lag :=
  lag_le (by decide) (by decide) (by decide) _
    (by decide +kernel) (by decide +kernel)

end FairShareScheduler

end PyStreamAI
