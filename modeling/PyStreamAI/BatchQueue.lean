import Mathlib.Algebra.Order.Field.Rat
import Mathlib.Data.Rat.Defs
import PyStreamAI.Machine

/-!
# The batch queue

Requests wait in arrival order until the batch is full or the oldest has waited long enough. The
methods run under an `asyncio.Lock` and do not await inside it, so each is one atomic step. Times
are clock readings in seconds, in exact arithmetic.

The queue keeps one time, set by the first `add` after a flush. It represents the waiting requests
with the time of each: the recorded time is that of the oldest, and `should_flush` decides by their
number and by that time (`shouldFlush_tracks_oldest`). `time.time()` is never 0, so the test for a
recorded time finds it.
-/

open Machine

namespace PyStreamAI

/-- Collects requests into batches. -/
structure BatchQueue (ρ : Type*) where
  maxBatchSize : ℤ := 32
  maxWaitMs : ℚ := 100
  queue : List ρ := []
  firstRequestTime : Option ℚ := none

namespace BatchQueue

variable {ρ : Type*}

/-- Add a request at the time `now`; the first one starts the clock of the batch. -/
def add (q : BatchQueue ρ) (now : ℚ) (request : ρ) : BatchQueue ρ :=
  { q with
    firstRequestTime := if q.queue = [] then some now else q.firstRequestTime
    queue := q.queue ++ [request] }

/-- Check if the batch should be flushed. A recorded time of 0 counts as none. -/
def shouldFlush (q : BatchQueue ρ) (now : ℚ) : Bool :=
  if q.queue = [] then false
  else if q.maxBatchSize ≤ q.queue.length then true
  else match q.firstRequestTime with
    | some t => decide (t ≠ 0 ∧ q.maxWaitMs ≤ (now - t) * 1000)
    | none => false

/-- Get the batch and clear the queue. -/
def flush (q : BatchQueue ρ) : List ρ × BatchQueue ρ :=
  (q.queue, { q with queue := [], firstRequestTime := none })

/-- Current queue size. -/
def size (q : BatchQueue ρ) : ℕ := q.queue.length

/-! ## When a batch is flushed -/

/-- A positive reading of the clock. -/
abbrev Reading := {t : ℚ // 0 < t}

/-- One call on a batch queue. -/
inductive Op (ρ : Type*)
  | add (now : Reading) (request : ρ)
  | shouldFlush (now : Reading)
  | flush

/-- The queue after a call. -/
def step (q : BatchQueue ρ) : Op ρ → BatchQueue ρ
  | .add now request => q.add now request
  | .shouldFlush _ => q
  | .flush => q.flush.2

/-- The waiting requests, oldest first, each with the time it was added at. -/
def wait (waiting : List (ρ × Reading)) : Op ρ → List (ρ × Reading)
  | .add now request => waiting ++ [(request, now)]
  | .shouldFlush _ => waiting
  | .flush => []

/-- `BatchQueue(max_batch_size, max_wait_ms)`. -/
def init (maxBatchSize : ℤ) (maxWaitMs : ℚ) : BatchQueue ρ := { maxBatchSize, maxWaitMs }

/-- The queue holds the waiting requests and the time of the oldest. -/
structure Represents (q : BatchQueue ρ) (waiting : List (ρ × Reading)) : Prop where
  queue : q.queue = waiting.map Prod.fst
  time : q.firstRequestTime = waiting.head?.map fun p => p.2.val

variable {q : BatchQueue ρ} {waiting : List (ρ × Reading)}

theorem Represents.step (h : Represents q waiting) (op : Op ρ) :
    Represents (q.step op) (wait waiting op) := by
  cases op with
  | add now request =>
    constructor
    · show q.queue ++ [request] = (waiting ++ [(request, now)]).map Prod.fst
      rw [h.queue, List.map_append, List.map_singleton]
    · show (if q.queue = [] then some now.val else q.firstRequestTime) = _
      rw [h.queue, h.time]
      cases waiting with
      | nil => rfl
      | cons p waiting => rfl
  | shouldFlush now => exact h
  | flush => exact ⟨rfl, rfl⟩

theorem represents_run (maxBatchSize : ℤ) (maxWaitMs : ℚ) (tr : List (Op ρ)) :
    Represents (run BatchQueue.step (init maxBatchSize maxWaitMs) tr) (run wait [] tr) := by
  induction tr using List.reverseRecOn with
  | nil => exact ⟨rfl, rfl⟩
  | append_singleton tr op ih =>
    rw [run_snoc, run_snoc]
    exact ih.step op

theorem firstRequestTime_eq_none (h : Represents q waiting) :
    q.firstRequestTime = none ↔ q.queue = [] := by
  rw [h.queue, h.time]
  cases waiting <;> simp

/-- The decision in terms of the oldest waiting request. -/
theorem shouldFlush_iff (h : Represents q waiting) (now : ℚ) :
    q.shouldFlush now = true ↔ ∃ oldest ∈ waiting.head?,
      q.maxBatchSize ≤ waiting.length ∨ q.maxWaitMs ≤ (now - oldest.2.val) * 1000 := by
  unfold BatchQueue.shouldFlush
  rw [h.queue, h.time]
  cases waiting with
  | nil => simp
  | cons oldest waiting =>
    have hpos : oldest.2.val ≠ 0 := ne_of_gt oldest.2.property
    rw [if_neg (by simp), List.length_map]
    by_cases hfull : q.maxBatchSize ≤ ((oldest :: waiting).length : ℤ)
    · rw [if_pos hfull]
      simp [-List.length_cons, hfull]
    · rw [if_neg hfull]
      simp [-List.length_cons, hfull, hpos]

theorem step_limits (q : BatchQueue ρ) (op : Op ρ) :
    (q.step op).maxBatchSize = q.maxBatchSize ∧ (q.step op).maxWaitMs = q.maxWaitMs := by
  cases op <;> exact ⟨rfl, rfl⟩

theorem run_limits (maxBatchSize : ℤ) (maxWaitMs : ℚ) (tr : List (Op ρ)) :
    (run BatchQueue.step (init maxBatchSize maxWaitMs) tr).maxBatchSize = maxBatchSize ∧
      (run BatchQueue.step (init maxBatchSize maxWaitMs) tr).maxWaitMs = maxWaitMs := by
  induction tr using List.reverseRecOn with
  | nil => exact ⟨rfl, rfl⟩
  | append_singleton tr op ih =>
    have hlimits := step_limits (run BatchQueue.step (init maxBatchSize maxWaitMs) tr) op
    rw [run_snoc]
    exact ⟨hlimits.1.trans ih.1, hlimits.2.trans ih.2⟩

/-- After any calls the queue holds the requests added since the last flush, a time is recorded
exactly when there are some, and `should_flush` says at any time whether they fill a batch or the
oldest has waited long enough. -/
theorem shouldFlush_tracks_oldest (maxBatchSize : ℤ) (maxWaitMs : ℚ) (tr : List (Op ρ)) :
    let q := run BatchQueue.step (init maxBatchSize maxWaitMs) tr
    let waiting := run wait [] tr
    q.queue = waiting.map Prod.fst ∧ (q.firstRequestTime = none ↔ q.queue = []) ∧
      ∀ now, q.shouldFlush now = true ↔ ∃ oldest ∈ waiting.head?,
        maxBatchSize ≤ waiting.length ∨ maxWaitMs ≤ (now - oldest.2.val) * 1000 := by
  intro q waiting
  have hrep : Represents q waiting := represents_run maxBatchSize maxWaitMs tr
  have hsize : q.maxBatchSize = maxBatchSize := (run_limits maxBatchSize maxWaitMs tr).1
  have hwait : q.maxWaitMs = maxWaitMs := (run_limits maxBatchSize maxWaitMs tr).2
  refine ⟨hrep.queue, firstRequestTime_eq_none hrep, fun now => ?_⟩
  have hiff := shouldFlush_iff hrep now
  rw [hsize, hwait] at hiff
  exact hiff

end BatchQueue

end PyStreamAI
