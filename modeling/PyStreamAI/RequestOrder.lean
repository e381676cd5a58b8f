import PyStreamAI.DeadlineScheduler
import PyStreamAI.FairShareService
import PyStreamAI.Py.HeapTies
import PyStreamAI.RequestLedger

/-!
# The order of service

The queue is a heap under the priority alone. So `dequeue` returns a live request of minimal
priority value (`dequeue_selects`), `peek` looks at the head also when it is expired
(`peek_eq_dequeue_iff`), and requests of one priority stay in the order they were enqueued in only
as long as no pop decides a tie against it (`fifo_of_fairTies`).
-/

open Py Machine Heapq

namespace PyStreamAI

namespace RequestScheduler

/-- The loop of `dequeue` is the scan for a live item. -/
theorem dequeueLoop_eq_popLive (clock : ℕ → ℤ) (i rounds : ℕ) (queue : List ScheduledRequest) :
    dequeueLoop clock i rounds queue =
      popLive ScheduledRequest.lt (fun j r => r.isExpired (clock j)) i rounds queue := by
  induction rounds generalizing i queue with
  | zero => rfl
  | succ rounds ih =>
    rw [dequeueLoop, popLive]
    cases heappop ScheduledRequest.lt queue with
    | none => rfl
    | some popped =>
      dsimp only
      rw [ih]

theorem heap_step {s : RequestScheduler} (h : IsHeap ScheduledRequest.priority s.queue) (op : Op) :
    IsHeap ScheduledRequest.priority (s.step op).queue := by
  cases op with
  | enqueue request now =>
    show IsHeap _ (s.enqueue request).2.queue
    unfold enqueue
    split_ifs
    · exact h
    · exact h
    · exact h.heappush ScheduledRequest.lt_iff request
  | dequeue clock =>
    show IsHeap _ (dequeueLoop clock 0 s.queue.length s.queue).2
    rw [dequeueLoop_eq_popLive]
    exact h.popLive_snd ScheduledRequest.lt_iff _ 0 s.queue.length
  | peek => exact h
  | setUserQuota userId q => exact h

theorem heap_run (maxQueueSize : ℤ) (tr : List Op) :
    IsHeap ScheduledRequest.priority (run step (init maxQueueSize) tr).queue :=
  run_invariant (I := fun s : RequestScheduler => IsHeap ScheduledRequest.priority s.queue)
    isHeap_nil (fun _ h op => heap_step h op) tr

/-! ## Dequeue -/

/-- The date of the last reading of a dequeue, which reads the clock once for each request it takes
out. -/
def lastReading (s : RequestScheduler) (clock : ℕ → ℤ) : ℤ :=
  clock (s.queue.length - (s.dequeue clock).2.queue.length - 1)

/-- `dequeue` selects by priority among the live requests: it returns one of minimal priority value,
`None` exactly when there is none, and takes only expired ones out besides. -/
structure SelectsLive (s : RequestScheduler) (clock : ℕ → ℤ) : Prop where
  none_iff : (s.dequeue clock).1 = none ↔
    ∀ r ∈ s.queue, r.isExpired (s.lastReading clock) = true
  least : ∀ r, (s.dequeue clock).1 = some r →
    r ∈ s.queue ∧ r.isExpired (s.lastReading clock) = false ∧
      ∀ q ∈ s.queue, q.isExpired (s.lastReading clock) = false → r.priority ≤ q.priority
  kept : ∃ expired, s.queue.Perm
      (expired ++ ((s.dequeue clock).1.toList ++ (s.dequeue clock).2.queue)) ∧
    ∀ d ∈ expired, d.isExpired (s.lastReading clock) = true

/-- A scheduler whose queue is a heap selects. -/
theorem selectsLive_of_heap {s : RequestScheduler} (h : IsHeap ScheduledRequest.priority s.queue)
    (clock : DeadlineScheduler.Clock) : s.SelectsLive clock := by
  have hdead : ∀ i j (r : ScheduledRequest), i ≤ j → r.isExpired (clock i) = true →
      r.isExpired (clock j) = true :=
    fun i j r hij => ScheduledRequest.isExpired_mono (clock.mono i j hij)
  have hscan : popLive ScheduledRequest.lt (fun j r => r.isExpired (clock j)) 0 s.queue.length
      s.queue = ((s.dequeue clock).1, (s.dequeue clock).2.queue) :=
    (dequeueLoop_eq_popLive clock 0 s.queue.length s.queue).symm
  obtain ⟨hnone, hleast, hkept⟩ := h.selects ScheduledRequest.lt_iff hdead hscan
  exact ⟨hnone, hleast, hkept⟩

/-- **Selection.** After every history of calls, `dequeue` selects by priority among the requests
that are live at its last reading of the clock. -/
theorem dequeue_selects (maxQueueSize : ℤ) (tr : List Op) (clock : DeadlineScheduler.Clock) :
    (run step (init maxQueueSize) tr).SelectsLive clock :=
  selectsLive_of_heap (heap_run maxQueueSize tr) clock

/-! ## Peek -/

/-- What `dequeue` returns at a fixed date is live then. -/
theorem isExpired_of_dequeue {s : RequestScheduler} {now : ℤ} {r : ScheduledRequest}
    (h : (s.dequeue fun _ => now).1 = some r) : r.isExpired now = false := by
  have hloop : (dequeueLoop (fun _ => now) 0 s.queue.length s.queue).1 = some r := h
  rw [dequeueLoop_eq_popLive] at hloop
  obtain ⟨-, hlive⟩ := live_of_popLive ScheduledRequest.lt hloop
  exact hlive

/-- A live head is what `dequeue` returns. -/
theorem dequeue_of_head_live {s : RequestScheduler} {clock : ℕ → ℤ} {r : ScheduledRequest}
    (hhead : s.queue.head? = some r) (hlive : r.isExpired (clock 0) = false) :
    (s.dequeue clock).1 = some r := by
  show (dequeueLoop clock 0 s.queue.length s.queue).1 = some r
  cases hpop : heappop ScheduledRequest.lt s.queue with
  | none =>
    rw [(heappop_eq_none _).mp hpop] at hhead
    cases hhead
  | some popped =>
    obtain ⟨request, rest⟩ := popped
    have hfirst := head?_of_heappop _ hpop
    rw [hhead] at hfirst
    obtain rfl := Option.some.inj hfirst
    have hlen := (heappop_perm _ hpop).length_eq
    rw [List.length_cons] at hlen
    rw [dequeueLoop_eq_popLive, hlen, popLive_succ_of_pop _ hpop, if_neg]
    rw [hlive]
    exact Bool.false_ne_true

/-- **Peek and dequeue.** At a fixed date `peek` returns what `dequeue` returns exactly when the
head of the queue, if there is one, is live. -/
theorem peek_eq_dequeue_iff (s : RequestScheduler) (now : ℤ) :
    s.peek = (s.dequeue fun _ => now).1 ↔
      ∀ r, s.queue.head? = some r → r.isExpired now = false := by
  constructor
  · intro heq r hhead
    exact isExpired_of_dequeue (heq.symm.trans hhead)
  · intro hlive
    cases hhead : s.queue.head? with
    | none =>
      have hempty := List.head?_eq_none_iff.mp hhead
      unfold peek dequeue
      rw [hempty]
      rfl
    | some r =>
      have hdequeue : (s.dequeue fun _ => now).1 = some r :=
        dequeue_of_head_live hhead (hlive r hhead)
      rw [hdequeue]
      exact hhead

/-- A request enqueued at the start, with the default timeout of 30 seconds. -/
def request (requestId : String) (priority : ℤ) : ScheduledRequest :=
  { priority, requestId, timestamp := 0 }

/-- After 31 seconds the only request is expired: `peek` returns it, `dequeue` returns `None`. -/
theorem peek_returns_expired :
    let s := run step (init 10) [.enqueue (request "a" 2) 0]
    s.peek = some (request "a" 2) ∧ (s.dequeue fun _ => 31000000).1 = none ∧
      ¬ s.peek = (s.dequeue fun _ => 31000000).1 := by decide +kernel

end RequestScheduler

/-! ## Requests of one priority -/

/-- A scheduler with the requests of its queue numbered in the order they were enqueued in. -/
structure NumberedScheduler where
  scheduler : RequestScheduler
  queue : List (ScheduledRequest × ℕ)
  next : ℕ
  projects : queue.map Prod.fst = scheduler.queue

namespace NumberedScheduler

open RequestScheduler

/-- The requests are compared as the scheduler compares them, by priority alone. -/
def lt : ScheduledRequest × ℕ → ScheduledRequest × ℕ → Bool := unstableLt ScheduledRequest.lt

/-- A new scheduler. -/
def init (maxQueueSize : ℤ) : NumberedScheduler := ⟨RequestScheduler.init maxQueueSize, [], 0, rfl⟩

/-- The scan of `dequeue` on the numbered queue. -/
def scan (s : NumberedScheduler) (clock : ℕ → ℤ) :
    Option (ScheduledRequest × ℕ) × List (ScheduledRequest × ℕ) :=
  popLive lt (fun j p => p.1.isExpired (clock j)) 0 s.scheduler.queue.length s.queue

theorem dequeue_eq_scan (s : NumberedScheduler) (clock : ℕ → ℤ) :
    (s.scheduler.dequeue clock).1 = (s.scan clock).1.map Prod.fst ∧
      (s.scheduler.dequeue clock).2.queue = (s.scan clock).2.map Prod.fst := by
  have hscan : popLive ScheduledRequest.lt (fun j r => r.isExpired (clock j)) 0
      s.scheduler.queue.length (s.queue.map Prod.fst) =
        ((s.scan clock).1.map Prod.fst, (s.scan clock).2.map Prod.fst) := popLive_map _ _ _ _
  rw [s.projects, ← dequeueLoop_eq_popLive] at hscan
  exact ⟨congrArg Prod.fst hscan, congrArg Prod.snd hscan⟩

/-- An accepted request gets the next number. -/
def push (s : NumberedScheduler) {request : ScheduledRequest} (h : s.scheduler.Accepts request) :
    NumberedScheduler where
  scheduler := (s.scheduler.enqueue request).2
  queue := heappush lt s.queue (request, s.next)
  next := s.next + 1
  projects := by
    rw [queue_enqueue_of h, ← s.projects]
    exact (heappush_map s.queue (request, s.next)).symm

/-- What the scan leaves stays queued. -/
def pop (s : NumberedScheduler) (clock : ℕ → ℤ) : NumberedScheduler where
  scheduler := (s.scheduler.dequeue clock).2
  queue := (s.scan clock).2
  next := s.next
  projects := (s.dequeue_eq_scan clock).2.symm

/-- The state after a call. -/
def step (s : NumberedScheduler) : Op → NumberedScheduler
  | .enqueue request _ =>
    if h : (s.scheduler.enqueue request).1 = true then s.push (enqueue_fst.mp h) else s
  | .dequeue clock => s.pop clock
  | .peek => s
  | .setUserQuota userId q =>
    { s with scheduler := s.scheduler.setUserQuota userId q, projects := s.projects }

theorem step_enqueue_of {s : NumberedScheduler} {request : ScheduledRequest}
    (h : s.scheduler.Accepts request) (now : ℤ) : s.step (.enqueue request now) = s.push h :=
  dif_pos (enqueue_fst.mpr h)

theorem step_enqueue_of_not {s : NumberedScheduler} {request : ScheduledRequest}
    (h : ¬ s.scheduler.Accepts request) (now : ℤ) : s.step (.enqueue request now) = s :=
  dif_neg (mt enqueue_fst.mp h)

/-- Numbering the requests does not change what the scheduler does. -/
theorem scheduler_step (s : NumberedScheduler) (op : Op) :
    (s.step op).scheduler = s.scheduler.step op := by
  cases op with
  | enqueue request now =>
    by_cases h : s.scheduler.Accepts request
    · rw [step_enqueue_of h]
      rfl
    · rw [step_enqueue_of_not h]
      exact (enqueue_snd_of_not h).symm
  | dequeue clock => rfl
  | peek => rfl
  | setUserQuota userId q => rfl

theorem scheduler_run (maxQueueSize : ℤ) (tr : List Op) :
    (run step (init maxQueueSize) tr).scheduler =
      run RequestScheduler.step (RequestScheduler.init maxQueueSize) tr := by
  induction tr using List.reverseRecOn with
  | nil => rfl
  | append_singleton tr op ih => rw [run_snoc, run_snoc, scheduler_step, ih]

/-- No pop compares two requests of one priority against the order they were enqueued in. -/
def FairTies (s : NumberedScheduler) : Op → Prop
  | .dequeue _ => popAgrees lt (stableLt ScheduledRequest.lt) s.queue = true
  | _ => True

instance (s : NumberedScheduler) : ∀ op, Decidable (s.FairTies op)
  | .dequeue _ => inferInstanceAs (Decidable (_ = true))
  | .enqueue _ _ => isTrue trivial
  | .peek => isTrue trivial
  | .setUserQuota _ _ => isTrue trivial

/-- The requests of priority `p`. -/
def ofPriority (p : ℤ) (requests : List ScheduledRequest) : List ScheduledRequest :=
  requests.filter fun r => r.priority = p

theorem ofPriority_append (p : ℤ) (rs rs' : List ScheduledRequest) :
    ofPriority p (rs ++ rs') = ofPriority p rs ++ ofPriority p rs' := List.filter_append rs rs'

/-- Of every priority, the accepted requests are the returned ones followed by those that wait. -/
structure WaitsInOrder (maxQueueSize : ℤ) (tr : List Op) (s : NumberedScheduler)
    (waiting : List (ScheduledRequest × ℕ)) : Prop where
  waits : Waits ScheduledRequest.priority s.queue waiting s.next
  ledger : ∀ p,
    ofPriority p ((accepted (RequestScheduler.init maxQueueSize) tr).map Prod.fst) =
      ofPriority p (returned (RequestScheduler.init maxQueueSize) tr) ++
        ofPriority p (waiting.map Prod.fst)

section Order

variable {maxQueueSize : ℤ} {tr : List Op} {waiting : List (ScheduledRequest × ℕ)}

theorem WaitsInOrder.push {s : NumberedScheduler} (h : WaitsInOrder maxQueueSize tr s waiting)
    (hs : s.scheduler = run RequestScheduler.step (RequestScheduler.init maxQueueSize) tr)
    {request : ScheduledRequest} (haccepts : s.scheduler.Accepts request) (now : ℤ) :
    WaitsInOrder maxQueueSize (tr ++ [.enqueue request now]) (s.push haccepts)
      (waiting ++ [(request, s.next)]) := by
  refine ⟨h.waits.push ScheduledRequest.lt_iff request, fun p => ?_⟩
  have hreturned : emitReturned s.scheduler (.enqueue request now) = [] := rfl
  rw [accepted_snoc, returned_snoc, ← hs, emitAccepted_enqueue_of haccepts, hreturned,
    List.append_nil, List.map_append, List.map_append, ofPriority_append, ofPriority_append,
    h.ledger p, List.append_assoc]
  rfl

/-- A dequeue that drops nothing, on a queue that is not empty, is one pop. -/
theorem dequeue_of_dropped_nil {s : NumberedScheduler} {clock : ℕ → ℤ}
    (hnone : emitDropped s.scheduler (.dequeue clock) = []) {p : ScheduledRequest × ℕ}
    {rest : List (ScheduledRequest × ℕ)} (hpop : heappop lt s.queue = some (p, rest)) :
    s.scan clock = (some p, rest) := by
  have hlen := (heappop_perm _ hpop).length_eq
  rw [← List.length_map (f := Prod.fst), s.projects, List.length_cons] at hlen
  have hpop' : heappop ScheduledRequest.lt s.scheduler.queue = some (p.1, rest.map Prod.fst) := by
    rw [← s.projects, heappop_map]
    exact congrArg _ hpop
  have hdropped : droppedLoop clock 0 s.scheduler.queue.length s.scheduler.queue = [] := hnone
  unfold scan
  rw [hlen, droppedLoop, hpop'] at hdropped
  rw [hlen, popLive_succ_of_pop lt hpop]
  dsimp only at hdropped
  split_ifs at hdropped ⊢
  rfl

/-- The item a list starts with, but for items of other priorities, is the first of its priority. -/
theorem ofPriority_middle {before after : List (ScheduledRequest × ℕ)} {x : ScheduledRequest × ℕ}
    (hbefore : ∀ q ∈ before, q.1.priority ≠ x.1.priority) (p : ℤ) :
    ofPriority p ((before ++ x :: after).map Prod.fst) =
      ofPriority p [x.1] ++ ofPriority p ((before ++ after).map Prod.fst) := by
  rw [List.map_append, List.map_append, List.map_cons, ofPriority_append, ofPriority_append,
    ← List.singleton_append, ofPriority_append]
  by_cases hp : x.1.priority = p
  · have hnil : ofPriority p (before.map Prod.fst) = [] := by
      refine List.filter_eq_nil_iff.mpr fun r hr => ?_
      obtain ⟨q, hq, rfl⟩ := List.mem_map.mp hr
      rw [decide_eq_true_iff, ← hp]
      exact hbefore q hq
    rw [hnil, List.nil_append, List.nil_append]
  · have hnil : ofPriority p [x.1] = [] := by simp [ofPriority, hp]
    rw [hnil, List.nil_append, List.nil_append]

/-- A dequeue that drops nothing and agrees with the numbers takes out, of the requests of its
priority, the one that waits first. -/
theorem scan_waits {s : NumberedScheduler} {clock : ℕ → ℤ}
    (h : Waits ScheduledRequest.priority s.queue waiting s.next)
    (hnone : emitDropped s.scheduler (.dequeue clock) = []) (hties : s.FairTies (.dequeue clock)) :
    ∃ waiting', Waits ScheduledRequest.priority (s.scan clock).2 waiting' s.next ∧
      ∀ p, ofPriority p (waiting.map Prod.fst) =
        ofPriority p ((s.scan clock).1.map Prod.fst).toList ++
          ofPriority p (waiting'.map Prod.fst) := by
  cases hpop : heappop lt s.queue with
  | none =>
    have hscan : s.scan clock = (none, s.queue) := by
      unfold scan
      cases s.scheduler.queue.length with
      | zero => rfl
      | succ n => rw [popLive, hpop]
    rw [hscan]
    exact ⟨waiting, h, fun p => rfl⟩
  | some popped =>
    obtain ⟨x, rest⟩ := popped
    obtain ⟨before, after, rfl, hwaits, hbefore⟩ := h.pop ScheduledRequest.lt_iff hties hpop
    rw [dequeue_of_dropped_nil hnone hpop]
    exact ⟨before ++ after, hwaits, ofPriority_middle hbefore⟩

theorem WaitsInOrder.pop {s : NumberedScheduler} (h : WaitsInOrder maxQueueSize tr s waiting)
    (hs : s.scheduler = run RequestScheduler.step (RequestScheduler.init maxQueueSize) tr)
    {clock : ℕ → ℤ} (hnone : emitDropped s.scheduler (.dequeue clock) = [])
    (hties : s.FairTies (.dequeue clock)) :
    ∃ waiting', WaitsInOrder maxQueueSize (tr ++ [.dequeue clock]) (s.pop clock) waiting' := by
  have haccepted : emitAccepted s.scheduler (.dequeue clock) = [] := rfl
  have hreturned : emitReturned s.scheduler (.dequeue clock) =
      ((s.scan clock).1.map Prod.fst).toList := congrArg Option.toList (s.dequeue_eq_scan clock).1
  obtain ⟨waiting', hwaits, hsplit⟩ := scan_waits h.waits hnone hties
  refine ⟨waiting', hwaits, fun p => ?_⟩
  rw [accepted_snoc, returned_snoc, ← hs, haccepted, hreturned, List.append_nil, h.ledger p,
    hsplit p, ofPriority_append, List.append_assoc]

/-- A call that enqueues and returns nothing and leaves the queue alone. -/
theorem WaitsInOrder.silent {s s' : NumberedScheduler} (h : WaitsInOrder maxQueueSize tr s waiting)
    (hqueue : s'.queue = s.queue) (hnext : s'.next = s.next) {op : Op}
    (haccepted : emitAccepted
      (run RequestScheduler.step (RequestScheduler.init maxQueueSize) tr) op = [])
    (hreturned : emitReturned
      (run RequestScheduler.step (RequestScheduler.init maxQueueSize) tr) op = []) :
    WaitsInOrder maxQueueSize (tr ++ [op]) s' waiting := by
  refine ⟨?_, fun p => ?_⟩
  · rw [hqueue, hnext]
    exact h.waits
  · rw [accepted_snoc, returned_snoc, haccepted, hreturned, List.append_nil, List.append_nil]
    exact h.ledger p

/-- In a run that drops nothing and whose pops agree with the numbers, the requests of each priority
wait in the order they were enqueued in. -/
theorem waitsInOrder_run (hnone : dropped (RequestScheduler.init maxQueueSize) tr = [])
    (hties : Along step FairTies (init maxQueueSize) tr) :
    ∃ waiting, WaitsInOrder maxQueueSize tr (run step (init maxQueueSize) tr) waiting := by
  induction tr using List.reverseRecOn with
  | nil => exact ⟨[], waits_nil 0, fun p => rfl⟩
  | append_singleton tr op ih =>
    rw [dropped_snoc, List.append_eq_nil_iff] at hnone
    obtain ⟨htr, hop⟩ := along_snoc.mp hties
    obtain ⟨waiting, h⟩ := ih hnone.1 htr
    have hs := scheduler_run maxQueueSize tr
    rw [← hs] at hnone
    rw [run_snoc]
    cases op with
    | enqueue request now =>
      by_cases haccepts : (run step (init maxQueueSize) tr).scheduler.Accepts request
      · rw [step_enqueue_of haccepts]
        exact ⟨_, h.push hs haccepts now⟩
      · rw [step_enqueue_of_not haccepts]
        rw [hs] at haccepts
        exact ⟨waiting, h.silent rfl rfl (emitAccepted_enqueue_of_not haccepts now) rfl⟩
    | dequeue clock => exact h.pop hs hnone.2 hop
    | peek => exact ⟨waiting, h.silent rfl rfl rfl rfl⟩
    | setUserQuota userId q =>
      refine ⟨waiting, h.silent ?_ ?_ rfl rfl⟩
      · rfl
      · rfl

end Order

end NumberedScheduler

namespace RequestScheduler

open NumberedScheduler (ofPriority)

/-- **Equal priorities.** In a run in which no request expires and no pop compares two requests of
one priority against the order they were enqueued in, the requests of each priority are returned in
the order they were enqueued in: the returned ones are the first of the accepted ones. -/
theorem fifo_of_fairTies (maxQueueSize : ℤ) (tr : List Op)
    (hnone : dropped (init maxQueueSize) tr = [])
    (hties : Along NumberedScheduler.step NumberedScheduler.FairTies
      (NumberedScheduler.init maxQueueSize) tr) (p : ℤ) :
    ofPriority p (returned (init maxQueueSize) tr) <+:
      ofPriority p ((accepted (init maxQueueSize) tr).map Prod.fst) := by
  obtain ⟨waiting, h⟩ := NumberedScheduler.waitsInOrder_run hnone hties
  rw [h.ledger p]
  exact List.prefix_append _ _

/-- An urgent request and two equal ones, with a third that comes after the first dequeue. -/
def fairRun : List Op :=
  [.enqueue (request "u" 1) 0, .enqueue (request "a" 2) 0, .enqueue (request "b" 2) 0,
    .dequeue fun _ => 0, .enqueue (request "c" 2) 0, .dequeue fun _ => 0, .dequeue fun _ => 0]

theorem fifo_fairRun :
    ofPriority 2 (returned (init 10) fairRun) <+:
      ofPriority 2 ((accepted (init 10) fairRun).map Prod.fst) :=
  fifo_of_fairTies 10 fairRun (by decide +kernel) (by decide +kernel) 2

/-- Of four equal requests the third is returned second. -/
theorem third_returned_second :
    let tr := ["a", "b", "c", "d"].map (fun i => Op.enqueue (request i 2) 0) ++
      [.dequeue fun _ => 0, .dequeue fun _ => 0]
    dropped (init 10) tr = [] ∧
      (accepted (init 10) tr).map Prod.fst = ["a", "b", "c", "d"].map (request · 2) ∧
      returned (init 10) tr = [request "a" 2, request "c" 2] ∧
      ¬ ofPriority 2 (returned (init 10) tr) <+:
        ofPriority 2 ((accepted (init 10) tr).map Prod.fst) := by decide +kernel

end RequestScheduler

end PyStreamAI
