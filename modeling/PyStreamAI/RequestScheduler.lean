import Mathlib.Data.Rat.Defs
import Mathlib.Algebra.Order.Field.Rat
import PyStreamAI.Machine
import PyStreamAI.Py.Dict
import PyStreamAI.Py.Heapq

/-!
# The request scheduler

A priority queue with a bound on its length and a quota per user. The counter dictionary
`request_counts` is shared: an accepted request counts once under its model id and, when it has a
user, once under the key `"user:" + user_id`. Dates are integers in microseconds.
-/

open Py

namespace PyStreamAI

/-- Request with priority and metadata. -/
structure ScheduledRequest where
  priority : ℤ
  requestId : String
  userId : Option String := none
  modelId : String := ""
  timestamp : ℤ
  timeoutMs : ℚ := 30000
  estimatedComputeMs : ℚ := 10
  deriving DecidableEq

namespace ScheduledRequest

/-- The order of the dataclass: only `priority` is compared. -/
def lt (r s : ScheduledRequest) : Bool := decide (r.priority < s.priority)

/-- Check if the request has timed out at the date `now`. The source computes the elapsed time in
floats, which can exceed a timeout that it equals (2007 ms); what is proved of it uses that it grows
with the clock. -/
def isExpired (r : ScheduledRequest) (now : ℤ) : Bool :=
  decide (r.timeoutMs < ((now - r.timestamp : ℤ) : ℚ) / 1000)

/-- The user of a request: a `user_id` that is neither `None` nor empty. -/
def user? (r : ScheduledRequest) : Option String := r.userId.filter (· ≠ "")

end ScheduledRequest

/-- Schedule and prioritize requests. -/
structure RequestScheduler where
  maxQueueSize : ℤ
  queue : List ScheduledRequest
  requestCounts : Dict String ℕ
  userQuotas : Dict String ℤ
  deriving DecidableEq

namespace RequestScheduler

/-- `RequestScheduler(max_queue_size)`. -/
def init (maxQueueSize : ℤ) : RequestScheduler :=
  { maxQueueSize, queue := [], requestCounts := ∅, userQuotas := ∅ }

/-- The key of a user's counter. -/
def userKey (userId : String) : String := "user:" ++ userId

/-- `self.user_quotas.get(user_id, 100)`, by default 100 requests a minute. -/
def quota (s : RequestScheduler) (userId : String) : ℤ := s.userQuotas.getD userId 100

/-- Check whether the user is still below the quota. -/
def checkUserQuota (s : RequestScheduler) (userId : String) : Bool :=
  decide ((s.requestCounts.getD (userKey userId) 0 : ℤ) < s.quota userId)

/-- `self.request_counts[key] = self.request_counts.get(key, 0) + 1`. -/
def bump (counts : Dict String ℕ) (key : String) : Dict String ℕ :=
  counts.set key (counts.getD key 0 + 1)

/-- Enqueue a request, unless the queue is full or the user's quota is exceeded. -/
def enqueue (s : RequestScheduler) (request : ScheduledRequest) : Bool × RequestScheduler :=
  if s.maxQueueSize ≤ s.queue.length then (false, s)
  else if request.user?.any fun u => !s.checkUserQuota u then (false, s)
  else
    let queue := Heapq.heappush ScheduledRequest.lt s.queue request
    let counts := bump s.requestCounts request.modelId
    let counts := match request.user? with
      | some u => bump counts (userKey u)
      | none => counts
    (true, { s with queue, requestCounts := counts })

/-- The loop of `dequeue`: `clock i` is the date read in round `i`, `rounds` the number of queued
requests. -/
def dequeueLoop (clock : ℕ → ℤ) (i : ℕ) :
    ℕ → List ScheduledRequest → Option ScheduledRequest × List ScheduledRequest
  | 0, queue => (none, queue)
  | rounds + 1, queue =>
    match Heapq.heappop ScheduledRequest.lt queue with
    | none => (none, queue)
    | some (request, queue) =>
      if request.isExpired (clock i) then dequeueLoop clock (i + 1) rounds queue
      else (some request, queue)

/-- Dequeue the highest priority request, dropping expired ones on the way. -/
def dequeue (s : RequestScheduler) (clock : ℕ → ℤ) : Option ScheduledRequest × RequestScheduler :=
  let (request, queue) := dequeueLoop clock 0 s.queue.length s.queue
  (request, { s with queue })

/-- Peek at the head of the queue without dequeuing. -/
def peek (s : RequestScheduler) : Option ScheduledRequest := s.queue.head?

/-- Set the quota of a user. -/
def setUserQuota (s : RequestScheduler) (userId : String) (requestsPerMinute : ℤ) :
    RequestScheduler :=
  { s with userQuotas := s.userQuotas.set userId requestsPerMinute }

/-! ## Histories of calls -/

/-- One call on a scheduler, with the dates it is made at. -/
inductive Op
  | enqueue (request : ScheduledRequest) (now : ℤ)
  | dequeue (clock : ℕ → ℤ)
  | peek
  | setUserQuota (userId : String) (requestsPerMinute : ℤ)

/-- The scheduler after a call. -/
def step (s : RequestScheduler) : Op → RequestScheduler
  | .enqueue request _ => (s.enqueue request).2
  | .dequeue clock => (s.dequeue clock).2
  | .peek => s
  | .setUserQuota userId q => s.setUserQuota userId q

/-- The request an accepting `enqueue` adds, with the date of the call. -/
def emitAccepted (s : RequestScheduler) : Op → List (ScheduledRequest × ℤ)
  | .enqueue request now => if (s.enqueue request).1 then [(request, now)] else []
  | _ => []

/-- The requests accepted in a history, oldest first. -/
def accepted (s : RequestScheduler) (tr : List Op) : List (ScheduledRequest × ℤ) :=
  Machine.log step emitAccepted s tr

/-! ## The acceptance test -/

/-- The two guards of `enqueue` let the request through. -/
def Accepts (s : RequestScheduler) (request : ScheduledRequest) : Prop :=
  (s.queue.length : ℤ) < s.maxQueueSize ∧
    ∀ u, request.user? = some u → s.checkUserQuota u = true

theorem any_not_check {s : RequestScheduler} {request : ScheduledRequest} :
    (request.user?.any fun u => !s.checkUserQuota u) = false ↔
      ∀ u, request.user? = some u → s.checkUserQuota u = true := by
  cases request.user? <;> simp

theorem enqueue_fst {s : RequestScheduler} {request : ScheduledRequest} :
    (s.enqueue request).1 = true ↔ s.Accepts request := by
  unfold enqueue Accepts
  rw [← any_not_check]
  by_cases hfull : s.maxQueueSize ≤ s.queue.length
  · simp [hfull, not_lt.mpr hfull]
  · cases hq : request.user?.any fun u => !s.checkUserQuota u <;> simp [hfull, not_le.mp hfull]

theorem accepted_snoc (s : RequestScheduler) (tr : List Op) (op : Op) :
    accepted s (tr ++ [op]) = accepted s tr ++ emitAccepted (Machine.run step s tr) op :=
  Machine.log_snoc s tr op

theorem emitAccepted_enqueue_of {s : RequestScheduler} {r : ScheduledRequest} (h : s.Accepts r)
    (now : ℤ) : emitAccepted s (.enqueue r now) = [(r, now)] := if_pos (enqueue_fst.mpr h)

theorem emitAccepted_enqueue_of_not {s : RequestScheduler} {r : ScheduledRequest}
    (h : ¬ s.Accepts r) (now : ℤ) : emitAccepted s (.enqueue r now) = [] :=
  if_neg (mt enqueue_fst.mp h)

/-- A refused request changes nothing. -/
theorem enqueue_snd_of_not {s : RequestScheduler} {request : ScheduledRequest}
    (h : ¬ s.Accepts request) : (s.enqueue request).2 = s := by
  rw [← enqueue_fst] at h
  unfold enqueue at *
  split_ifs at * <;> simp_all

/-- The counters after an accepted request. -/
theorem requestCounts_enqueue {s : RequestScheduler} {request : ScheduledRequest}
    (h : s.Accepts request) :
    (s.enqueue request).2.requestCounts = match request.user? with
      | some u => bump (bump s.requestCounts request.modelId) (userKey u)
      | none => bump s.requestCounts request.modelId := by
  have hq := any_not_check.mpr h.2
  unfold enqueue
  rw [if_neg (not_le.mpr h.1), hq]
  rfl

theorem getD_bump (counts : Dict String ℕ) (key k : String) :
    (bump counts key).getD k 0 = counts.getD k 0 + if key = k then 1 else 0 := by
  unfold bump
  rw [Dict.getD_set]
  by_cases h : k = key
  · rw [if_pos h, if_pos h.symm, h]
  · rw [if_neg h, if_neg (Ne.symm h), Nat.add_zero]

end RequestScheduler

end PyStreamAI
