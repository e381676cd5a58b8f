import PyStreamAI.RequestScheduler

/-!
# The ledger of requests

Every request that `enqueue` accepts is, counted with multiplicity, still queued, or was returned by
a `dequeue`, or was dropped by a `dequeue` that read a date at which it was expired. Nothing else is
ever returned, and the queue stays within its bound (`conserves_run`).
-/

open Py Machine

namespace PyStreamAI

namespace RequestScheduler

/-! ## What a dequeue takes out -/

/-- The requests the loop of `dequeue` drops, with the date read for each. -/
def droppedLoop (clock : ℕ → ℤ) (i : ℕ) : ℕ → List ScheduledRequest → List (ScheduledRequest × ℤ)
  | 0, _ => []
  | rounds + 1, queue =>
    match Heapq.heappop ScheduledRequest.lt queue with
    | none => []
    | some (request, queue) =>
      if request.isExpired (clock i) then
        (request, clock i) :: droppedLoop clock (i + 1) rounds queue
      else []

/-- The request a call returns. -/
def emitReturned (s : RequestScheduler) : Op → List ScheduledRequest
  | .dequeue clock => (s.dequeue clock).1.toList
  | _ => []

/-- The requests a call drops. -/
def emitDropped (s : RequestScheduler) : Op → List (ScheduledRequest × ℤ)
  | .dequeue clock => droppedLoop clock 0 s.queue.length s.queue
  | _ => []

/-- The requests returned in a history, oldest first. -/
def returned (s : RequestScheduler) (tr : List Op) : List ScheduledRequest :=
  log step emitReturned s tr

/-- The requests dropped in a history, oldest first. -/
def dropped (s : RequestScheduler) (tr : List Op) : List (ScheduledRequest × ℤ) :=
  log step emitDropped s tr

theorem returned_snoc (s : RequestScheduler) (tr : List Op) (op : Op) :
    returned s (tr ++ [op]) = returned s tr ++ emitReturned (run step s tr) op := log_snoc s tr op

theorem dropped_snoc (s : RequestScheduler) (tr : List Op) (op : Op) :
    dropped s (tr ++ [op]) = dropped s tr ++ emitDropped (run step s tr) op := log_snoc s tr op

/-- The loop splits the queue into what it drops, what it returns and what it leaves. -/
theorem dequeueLoop_perm (clock : ℕ → ℤ) (i rounds : ℕ) (queue : List ScheduledRequest) :
    queue.Perm ((droppedLoop clock i rounds queue).map Prod.fst ++
      ((dequeueLoop clock i rounds queue).1.toList ++ (dequeueLoop clock i rounds queue).2)) := by
  induction rounds generalizing i queue with
  | zero => exact List.Perm.refl _
  | succ rounds ih =>
    rw [droppedLoop, dequeueLoop]
    cases hpop : Heapq.heappop ScheduledRequest.lt queue with
    | none => exact List.Perm.refl _
    | some popped =>
      obtain ⟨request, rest⟩ := popped
      have hperm := Heapq.heappop_perm _ hpop
      dsimp only
      split_ifs
      · exact hperm.trans ((ih (i + 1) rest).cons request)
      · exact hperm

theorem expired_of_mem_droppedLoop {clock : ℕ → ℤ} {i rounds : ℕ} {queue : List ScheduledRequest}
    {p : ScheduledRequest × ℤ} (h : p ∈ droppedLoop clock i rounds queue) :
    p.1.isExpired p.2 = true ∧ ∃ j, p.2 = clock j := by
  induction rounds generalizing i queue with
  | zero => cases h
  | succ rounds ih =>
    rw [droppedLoop] at h
    cases hpop : Heapq.heappop ScheduledRequest.lt queue with
    | none =>
      rw [hpop] at h
      cases h
    | some popped =>
      rw [hpop] at h
      dsimp only at h
      split_ifs at h with hexpired
      · rcases List.mem_cons.mp h with rfl | h
        · exact ⟨hexpired, i, rfl⟩
        · exact ih h
      · cases h

theorem queue_enqueue_of {s : RequestScheduler} {request : ScheduledRequest}
    (h : s.Accepts request) :
    (s.enqueue request).2.queue = Heapq.heappush ScheduledRequest.lt s.queue request := by
  have hq := any_not_check.mpr h.2
  unfold enqueue
  rw [if_neg (not_le.mpr h.1), hq]
  rfl

theorem queue_enqueue {s : RequestScheduler} {request : ScheduledRequest} (h : s.Accepts request) :
    (s.enqueue request).2.queue.Perm (request :: s.queue) := by
  rw [queue_enqueue_of h]
  exact Heapq.heappush_perm _ s.queue request

theorem maxQueueSize_step (s : RequestScheduler) (op : Op) :
    (step s op).maxQueueSize = s.maxQueueSize := by
  cases op with
  | enqueue r now =>
    show (s.enqueue r).2.maxQueueSize = _
    unfold enqueue
    split_ifs <;> rfl
  | dequeue clock => rfl
  | peek => rfl
  | setUserQuota u q => rfl

/-! ## Conservation -/

/-- Where the accepted requests of a history are. -/
structure Conserves (maxQueueSize : ℕ) (tr : List Op) (s : RequestScheduler) : Prop where
  bounded : s.queue.length ≤ maxQueueSize
  ledger : ((accepted (init maxQueueSize) tr).map Prod.fst).Perm
    (returned (init maxQueueSize) tr ++ (dropped (init maxQueueSize) tr).map Prod.fst ++ s.queue)
  expired : ∀ p ∈ dropped (init maxQueueSize) tr,
    p.1.isExpired p.2 = true ∧ ∃ clock i, .dequeue clock ∈ tr ∧ p.2 = clock i
  refused : ∀ request, (s.enqueue request).1 = false → (s.enqueue request).2 = s

theorem maxQueueSize_run (maxQueueSize : ℤ) (tr : List Op) :
    (run step (init maxQueueSize) tr).maxQueueSize = maxQueueSize :=
  run_invariant (I := fun s : RequestScheduler => s.maxQueueSize = maxQueueSize) rfl
    (fun s h op => (maxQueueSize_step s op).trans h) tr

theorem enqueue_refused {s : RequestScheduler} {request : ScheduledRequest}
    (h : (s.enqueue request).1 = false) : (s.enqueue request).2 = s := by
  refine enqueue_snd_of_not fun haccepts => ?_
  rw [enqueue_fst.mpr haccepts] at h
  cases h

section Steps

variable {n : ℕ} {tr : List Op}

/-- A call that accepts, returns and drops nothing, and leaves the queue. -/
theorem Conserves.quiet (h : Conserves n tr (run step (init n) tr)) {op : Op}
    (haccepted : emitAccepted (run step (init n) tr) op = [])
    (hreturned : emitReturned (run step (init n) tr) op = [])
    (hdropped : emitDropped (run step (init n) tr) op = [])
    (hqueue : (step (run step (init n) tr) op).queue = (run step (init n) tr).queue) :
    Conserves n (tr ++ [op]) (step (run step (init n) tr) op) := by
  have hbounded := h.bounded
  have hledger := h.ledger
  refine ⟨hqueue ▸ hbounded, ?_, fun p hp => ?_, fun _ => enqueue_refused⟩
  · rw [accepted_snoc, returned_snoc, dropped_snoc, haccepted, hreturned, hdropped, hqueue]
    simpa only [List.append_nil] using hledger
  · rw [dropped_snoc, hdropped, List.append_nil] at hp
    obtain ⟨hexpired, clock, i, hmem, hdate⟩ := h.expired p hp
    exact ⟨hexpired, clock, i, List.mem_append_left _ hmem, hdate⟩

theorem Conserves.enqueue (h : Conserves n tr (run step (init n) tr)) (request : ScheduledRequest)
    (now : ℤ) : Conserves n (tr ++ [.enqueue request now])
      ((run step (init n) tr).enqueue request).2 := by
  by_cases haccepts : (run step (init n) tr).Accepts request
  · have hqueue := queue_enqueue haccepts
    have hledger := h.ledger
    refine ⟨?_, ?_, fun p hp => ?_, fun _ => enqueue_refused⟩
    · have hroom := haccepts.1
      rw [maxQueueSize_run] at hroom
      rw [hqueue.length_eq, List.length_cons]
      omega
    · rw [accepted_snoc, returned_snoc, dropped_snoc, emitAccepted_enqueue_of haccepts]
      refine List.perm_iff_count.mpr fun r => ?_
      have hcount := hledger.count_eq r
      have hcountQueue := hqueue.count_eq r
      simp only [emitReturned, emitDropped, List.append_nil, List.map_append, List.map_cons,
        List.map_nil, List.count_append, List.count_cons, List.count_nil] at *
      omega
    · have hdropped : emitDropped (run step (init n) tr) (.enqueue request now) = [] := rfl
      rw [dropped_snoc, hdropped, List.append_nil] at hp
      obtain ⟨hexpired, clock, i, hmem, hdate⟩ := h.expired p hp
      exact ⟨hexpired, clock, i, List.mem_append_left _ hmem, hdate⟩
  · have hsame : step (run step (init n) tr) (.enqueue request now) = run step (init n) tr :=
      enqueue_snd_of_not haccepts
    exact h.quiet (emitAccepted_enqueue_of_not haccepts now) rfl rfl (congrArg queue hsame)

theorem Conserves.dequeue (h : Conserves n tr (run step (init n) tr)) (clock : ℕ → ℤ) :
    Conserves n (tr ++ [.dequeue clock]) ((run step (init n) tr).dequeue clock).2 := by
  have hsplit := dequeueLoop_perm clock 0 (run step (init n) tr).queue.length
    (run step (init n) tr).queue
  have hbounded := h.bounded
  have hledger := h.ledger
  refine ⟨?_, ?_, fun p hp => ?_, fun _ => enqueue_refused⟩
  · have hlen := hsplit.length_eq
    rw [List.length_append, List.length_append] at hlen
    show (dequeueLoop clock 0 _ _).2.length ≤ n
    omega
  · rw [accepted_snoc, returned_snoc, dropped_snoc]
    refine List.perm_iff_count.mpr fun r => ?_
    have hcount := hledger.count_eq r
    have hcountQueue := hsplit.count_eq r
    simp only [emitAccepted, emitReturned, emitDropped, RequestScheduler.dequeue, List.append_nil,
      List.map_append, List.count_append] at *
    omega
  · rw [dropped_snoc] at hp
    rcases List.mem_append.mp hp with hp | hp
    · obtain ⟨hexpired, clock', i, hmem, hdate⟩ := h.expired p hp
      exact ⟨hexpired, clock', i, List.mem_append_left _ hmem, hdate⟩
    · obtain ⟨hexpired, i, hdate⟩ := expired_of_mem_droppedLoop hp
      exact ⟨hexpired, clock, i, List.mem_append_right _ (List.mem_singleton.mpr rfl), hdate⟩

theorem Conserves.step (h : Conserves n tr (run step (init n) tr)) (op : Op) :
    Conserves n (tr ++ [op]) (step (run step (init n) tr) op) := by
  cases op with
  | enqueue request now => exact h.enqueue request now
  | dequeue clock => exact h.dequeue clock
  | peek => exact h.quiet rfl rfl rfl rfl
  | setUserQuota userId q => exact h.quiet rfl rfl rfl rfl

end Steps

/-- **Conservation.** After every history the queue is within its bound, the accepted requests are,
with multiplicity, those returned, those dropped at a date at which they were expired, and those
queued, and a refused request changes nothing. -/
theorem conserves_run (maxQueueSize : ℕ) (tr : List Op) :
    Conserves maxQueueSize tr (run step (init maxQueueSize) tr) := by
  induction tr using List.reverseRecOn with
  | nil =>
    exact ⟨Nat.zero_le _, List.Perm.refl _, fun _ hp => (by cases hp), fun _ => enqueue_refused⟩
  | append_singleton tr op ih =>
    rw [run_snoc]
    exact ih.step op

end RequestScheduler

end PyStreamAI
