import PyStreamAI.Machine
import PyStreamAI.Rust.SortBy

/-!
# Batches by priority

The optimizer takes at most `batch_size` requests from the front of its queue and sorts these by
priority. Priority decides within a batch alone: batches cut the arrivals in order, every request is
in one of them, and the queue runs empty (`batches_drain`).
-/

open Machine Rust

namespace PyStreamAI

namespace InferenceOptimizer

inductive RequestPriority
  | low
  | normal
  | high
  | critical
  deriving DecidableEq

namespace RequestPriority

/-- The discriminant. -/
def toNat : RequestPriority → ℕ
  | low => 0
  | normal => 1
  | high => 2
  | critical => 3

theorem toNat_injective : Function.Injective toNat := by
  intro p q h
  cases p <;> cases q <;> first | rfl | cases h

/-- The derived order, that of the discriminants. -/
instance : LinearOrder RequestPriority := LinearOrder.lift' toNat toNat_injective

end RequestPriority

structure InferenceRequest where
  id : String
  modelId : String
  inputTokens : UInt64
  priority : RequestPriority
  submittedAt : UInt64
  deriving DecidableEq

end InferenceOptimizer

open InferenceOptimizer (RequestPriority)

/-- The optimizer's queue and its batch size, 32 from `new` on. -/
structure InferenceOptimizer where
  batchSize : ℕ := 32
  requestQueue : List InferenceOptimizer.InferenceRequest := []

namespace InferenceOptimizer

def queueRequest (s : InferenceOptimizer) (request : InferenceRequest) : InferenceOptimizer :=
  { s with requestQueue := s.requestQueue ++ [request] }

/-- `n` rounds of the loop of `next_batch`, on the queue and the batch so far. -/
def popLoop : ℕ → List InferenceRequest → List InferenceRequest →
    List InferenceRequest × List InferenceRequest
  | 0, queue, batch => (queue, batch)
  | n + 1, [], batch => popLoop n [] batch
  | n + 1, req :: queue, batch => popLoop n queue (batch ++ [req])

def nextBatch (s : InferenceOptimizer) : List InferenceRequest × InferenceOptimizer :=
  let batchSize := min s.batchSize s.requestQueue.length
  let (queue, batch) := popLoop batchSize s.requestQueue []
  -- Sort by priority (high priority first)
  (sortByDesc InferenceRequest.priority batch, { s with requestQueue := queue })

/-- A call on the optimizer. -/
inductive Op
  | queueRequest (request : InferenceRequest)
  | nextBatch

def step (s : InferenceOptimizer) : Op → InferenceOptimizer
  | .queueRequest request => s.queueRequest request
  | .nextBatch => s.nextBatch.2

/-- The requests a call adds. -/
def Op.arrival : Op → List InferenceRequest
  | .queueRequest request => [request]
  | .nextBatch => []

/-- The requests queued in a history. -/
def arrivals (tr : List Op) : List InferenceRequest := tr.flatMap Op.arrival

def emitBatch (s : InferenceOptimizer) : Op → List (List InferenceRequest)
  | .queueRequest _ => []
  | .nextBatch => [s.nextBatch.1]

/-- The batches returned in a history. -/
def batches (s : InferenceOptimizer) (tr : List Op) : List (List InferenceRequest) :=
  log step emitBatch s tr

/-! ## One batch -/

/-- The loop moves the front of the queue to the batch. -/
theorem popLoop_eq (n : ℕ) (queue batch : List InferenceRequest) :
    popLoop n queue batch = (queue.drop n, batch ++ queue.take n) := by
  induction n generalizing queue batch with
  | zero => simp [popLoop]
  | succ n ih =>
    cases queue with
    | nil => simp [popLoop, ih]
    | cons req queue => simp [popLoop, ih]

theorem nextBatch_eq (s : InferenceOptimizer) :
    s.nextBatch = (sortByDesc InferenceRequest.priority
        (s.requestQueue.take (min s.batchSize s.requestQueue.length)),
      { s with requestQueue := s.requestQueue.drop (min s.batchSize s.requestQueue.length) }) := by
  unfold nextBatch
  dsimp only
  rw [popLoop_eq, List.nil_append]

theorem batchSize_step (s : InferenceOptimizer) (op : Op) : (step s op).batchSize = s.batchSize := by
  cases op <;> rfl

theorem batchSize_run (s : InferenceOptimizer) (tr : List Op) :
    (run step s tr).batchSize = s.batchSize := by
  induction tr using List.reverseRecOn with
  | nil => rfl
  | append_singleton tr op ih =>
    rw [run_snoc, batchSize_step]
    exact ih

/-! ## Runs -/

theorem arrivals_snoc (tr : List Op) (op : Op) :
    arrivals (tr ++ [op]) = arrivals tr ++ op.arrival := by
  unfold arrivals
  rw [List.flatMap_append, List.flatMap_singleton]

/-- The batches are the sorted chunks of the arrivals, and the rest is queued in order. -/
theorem batches_ledger (s : InferenceOptimizer) (tr : List Op) :
    ∃ chunks : List (List InferenceRequest),
      chunks.flatten ++ (run step s tr).requestQueue = s.requestQueue ++ arrivals tr ∧
      batches s tr = chunks.map (sortByDesc InferenceRequest.priority) := by
  induction tr using List.reverseRecOn with
  | nil => exact ⟨[], (List.append_nil _).symm, rfl⟩
  | append_singleton tr op ih =>
    obtain ⟨chunks, hflatten, hbatches⟩ := ih
    unfold batches at hbatches ⊢
    rw [run_snoc, log_snoc, arrivals_snoc, hbatches, ← List.append_assoc, ← hflatten]
    cases op with
    | queueRequest request =>
      exact ⟨chunks, (List.append_assoc _ _ _).symm, List.append_nil _⟩
    | nextBatch =>
      set s' := run step s tr
      refine ⟨chunks ++ [s'.requestQueue.take (min s'.batchSize s'.requestQueue.length)], ?_, ?_⟩
      · show _ ++ s'.nextBatch.2.requestQueue = _ ++ []
        rw [nextBatch_eq, List.flatten_append, List.flatten_singleton, List.append_assoc,
          List.take_append_drop, List.append_nil]
      · rw [List.map_append, List.map_singleton]
        show _ ++ [s'.nextBatch.1] = _
        rw [nextBatch_eq]

/-- Sorting chunks loses nothing. -/
theorem flatten_map_sortByDesc (chunks : List (List InferenceRequest)) :
    (chunks.map (sortByDesc InferenceRequest.priority)).flatten.Perm chunks.flatten := by
  induction chunks with
  | nil => exact List.Perm.refl _
  | cons chunk chunks ih =>
    rw [List.map_cons, List.flatten_cons, List.flatten_cons]
    exact (stableDesc_sortByDesc _ chunk).perm.append ih

/-- `k` calls take `k` batches off the queue. -/
theorem requestQueue_drain (s : InferenceOptimizer) (k : ℕ) :
    (run step s (List.replicate k .nextBatch)).requestQueue =
      s.requestQueue.drop (s.batchSize * k) := by
  induction k generalizing s with
  | zero => rfl
  | succ k ih =>
    rw [List.replicate_succ, run_cons, ih]
    show s.nextBatch.2.requestQueue.drop (s.nextBatch.2.batchSize * k) = _
    rw [nextBatch_eq, List.drop_drop]
    by_cases hlen : s.batchSize ≤ s.requestQueue.length
    · rw [Nat.min_eq_left hlen, Nat.mul_succ, Nat.add_comm]
    · rw [Nat.min_eq_right (by omega), Nat.mul_succ, List.drop_eq_nil_of_le (by omega),
        List.drop_eq_nil_of_le (by omega)]

/-- From any queue, in any order of calls: `next_batch` returns the stable sort of the front of the
queue and leaves the rest, the batches are the chunks of the arrivals in order, every request is
returned once or still queued, and calling `next_batch` on ends with an empty batch and an empty
queue. -/
theorem batches_drain (queue : List InferenceRequest) (tr : List Op) :
    let s₀ : InferenceOptimizer := { requestQueue := queue }
    let s := run step s₀ tr
    let n := min 32 s.requestQueue.length
    StableDesc InferenceRequest.priority (s.requestQueue.take n) s.nextBatch.1 ∧
    s.nextBatch.2.requestQueue = s.requestQueue.drop n ∧
    (∃ chunks : List (List InferenceRequest),
      chunks.flatten ++ s.requestQueue = queue ++ arrivals tr ∧
      batches s₀ tr = chunks.map (sortByDesc InferenceRequest.priority)) ∧
    ((batches s₀ tr).flatten ++ s.requestQueue).Perm (queue ++ arrivals tr) ∧
    ∃ k, let s' := run step s (List.replicate k .nextBatch)
      s'.nextBatch.1 = [] ∧ s'.requestQueue = [] := by
  intro s₀ s n
  have hsize : s.batchSize = 32 := batchSize_run s₀ tr
  have hn : min s.batchSize s.requestQueue.length = n := by rw [hsize]
  obtain ⟨chunks, hflatten, hbatches⟩ := batches_ledger s₀ tr
  refine ⟨?_, ?_, ⟨chunks, hflatten, hbatches⟩, ?_, s.requestQueue.length, ?_⟩
  · rw [nextBatch_eq, hn]
    exact stableDesc_sortByDesc _ _
  · rw [nextBatch_eq, hn]
  · rw [hbatches, ← hflatten]
    exact (flatten_map_sortByDesc chunks).append_right _
  · intro s'
    have hempty : s'.requestQueue = [] := by
      have hdrain := requestQueue_drain s s.requestQueue.length
      rw [hsize] at hdrain
      exact hdrain.trans (List.drop_eq_nil_of_le (by omega))
    refine ⟨?_, hempty⟩
    rw [nextBatch_eq, hempty, List.take_nil]
    exact List.mergeSort_nil

end InferenceOptimizer

end PyStreamAI
