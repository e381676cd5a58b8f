import Mathlib.Data.Int.Log
import Mathlib.Data.Rat.Floor
import PyStreamAI.FairShareLag

/-!
# Fair share in floating-point arithmetic

The tokens of the scheduler are floats. `stepRounded fl` is a call in which every sum, difference and
quotient is rounded by `fl`; without rounding it is the call of `FairShareScheduler`
(`stepRounded_id`), for which the lag between two models is bounded (`lag_le`). In floats, where an
operation gives the float nearest to the exact result (`binary64`), one refill can carry the lag past
that bound (`lag_exceeds_rounded`).
-/

/-! ## Floats -/

namespace Py

/-- The nearest integer, the even one of two. -/
def nearestEven (x : ℚ) : ℤ :=
  if x - ⌊x⌋ < 1 / 2 then ⌊x⌋
  else if 1 / 2 < x - ⌊x⌋ then ⌊x⌋ + 1
  else if ⌊x⌋ % 2 = 0 then ⌊x⌋ else ⌊x⌋ + 1

/-- The exponent of the last place of the floats around `x`: they have 53 binary digits, and fewer
below `2 ^ (-1022)`. -/
def lastPlace (x : ℚ) : ℤ := max (Int.log 2 |x| - 52) (-1074)

/-- The float nearest to `x`. -/
def binary64 (x : ℚ) : ℚ := nearestEven (x / 2 ^ lastPlace x) * 2 ^ lastPlace x

example : binary64 (1 / 10) = 3602879701896397 / 36028797018963968 := by decide +kernel

end Py

open Py Machine

namespace PyStreamAI

namespace FairShareScheduler

variable (fl : ℚ → ℚ) (s : FairShareScheduler)

/-- `serve`, with rounded tokens. -/
def serveRounded (best : String) (request : ScheduledRequest) (rest : List ScheduledRequest) :
    FairShareScheduler :=
  { s.serve best request rest with
    modelTokens := s.modelTokens.set best (fl (s.balance best - fl (cost request)))
    keys_modelTokens := fun m hm => Dict.mem_keys_set.mpr (.inr (s.keys_modelTokens m hm)) }

/-- `dequeue_fair`, with rounded tokens. -/
def dequeueFairRounded : Res FairShareScheduler (Option (ScheduledRequest × String)) :=
  match s.models.argmax s.score with
  | none => (.error ⟨"ValueError", "max() iterable argument is empty"⟩, s)
  | some best =>
    match Heapq.heappop ScheduledRequest.lt (s.queueOf best) with
    | none => (.ok none, s)
    | some (request, rest) => (.ok (some (request, best)), s.serveRounded fl best request rest)

/-- `refill`, with rounded tokens. -/
def refillRounded (rate : ℚ) (models : List String) (tokens : Dict String ℚ) : Dict String ℚ :=
  models.foldl (fun tokens m => tokens.set m (fl (tokens.getD m 0 + rate))) tokens

theorem mem_keys_refillRounded {rate : ℚ} {models : List String} {tokens : Dict String ℚ}
    {m : String} (h : m ∈ tokens.keys) : m ∈ (refillRounded fl rate models tokens).keys := by
  unfold refillRounded
  induction models generalizing tokens with
  | nil => exact h
  | cons m' models ih => exact ih (Dict.mem_keys_set.mpr (.inr h))

/-- `refill_tokens`, with rounded tokens. -/
def refillTokensRounded : FairShareScheduler :=
  { s with
    modelTokens := refillRounded fl s.tokenRate s.models s.modelTokens
    keys_modelTokens := fun m hm => mem_keys_refillRounded fl (s.keys_modelTokens m hm) }

/-- The scheduler after a call, with rounded tokens. -/
def stepRounded : Op → FairShareScheduler
  | .enqueue request => (s.enqueue request).2
  | .dequeueFair => (s.dequeueFairRounded fl).2
  | .refillTokens => s.refillTokensRounded fl

/-- The requests served in a history, with rounded tokens. -/
def servedRounded (tr : List Op) : List (ScheduledRequest × String) :=
  log (stepRounded fl) emitServed s tr

/-- Nothing is rounded in exact arithmetic. -/
theorem stepRounded_id (op : Op) : s.stepRounded id op = step s op := by
  cases op with
  | dequeueFair =>
    show (s.dequeueFairRounded id).2 = s.dequeueFair.2
    unfold dequeueFairRounded dequeueFair
    cases s.models.argmax s.score with
    | none => rfl
    | some best => cases Heapq.heappop ScheduledRequest.lt (s.queueOf best) <;> rfl
  | _ => rfl

/-- A request of 100 ms for `a` and one of `b`. -/
def waitingTwo : List Op :=
  let request (m : String) : ScheduledRequest :=
    { priority := 0, requestId := "r", modelId := m, timestamp := 0, estimatedComputeMs := 100 }
  [.enqueue (request "a"), .enqueue (request "b")]

/-- In floats the balances of two waiting models start equal, the only request served costs the
float `0.1`, and after one more refill they differ by `2.0 - 1.9`, which is more. -/
theorem lag_exceeds_rounded :
    let s := run (stepRounded binary64) (init ["a", "b"]) waitingTwo
    let tr : List Op := [.dequeueFair, .refillTokens]
    let C := binary64 (1 / 10)
    Along (stepRounded binary64) (BothWait "a" "b") s tr ∧
      (∀ p ∈ servedRounded binary64 s tr, 0 ≤ binary64 (cost p.1) ∧ binary64 (cost p.1) ≤ C) ∧
      s.gap "a" "b" = 0 ∧
      ¬ |(run (stepRounded binary64) s tr).gap "a" "b"| ≤ max |s.gap "a" "b"| C := by
  refine ⟨by decide +kernel, by decide +kernel, by decide +kernel, by decide +kernel⟩

end FairShareScheduler

end PyStreamAI
