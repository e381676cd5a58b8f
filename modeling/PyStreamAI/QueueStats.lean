import PyStreamAI.Py.Basic
import PyStreamAI.RequestLedger

/-!
# The statistics of the request queue

`get_queue_stats` counts the queued requests by model and by priority. The priority counts are
indexed by the name of the enum member a priority stands for, and `enqueue` accepts any integer: the
statistics exist exactly as long as every accepted priority is one of the four values of the enum
(`queueStats_consistent_iff`).
-/

open Py Machine

namespace PyStreamAI

/-- Request priority levels. -/
inductive RequestPriority
  | low
  | normal
  | high
  | critical
  deriving DecidableEq

namespace RequestPriority

/-- The members, in the order of their definition. -/
def members : List RequestPriority := [low, normal, high, critical]

def value : RequestPriority → ℤ
  | low => 3
  | normal => 2
  | high => 1
  | critical => 0

def name : RequestPriority → String
  | low => "LOW"
  | normal => "NORMAL"
  | high => "HIGH"
  | critical => "CRITICAL"

/-- `RequestPriority(v)`. -/
def ofValue (v : ℤ) : Except Error RequestPriority :=
  match members.find? fun p => p.value = v with
  | some p => .ok p
  | none => .error ⟨"ValueError", s!"{v} is not a valid RequestPriority"⟩

theorem ofValue_returns {v : ℤ} : Returns (ofValue v) ↔ 0 ≤ v ∧ v ≤ 3 := by
  unfold ofValue
  cases hfind : members.find? fun p => p.value = v with
  | some p =>
    have hv := List.find?_some hfind
    have hvalue : p.value = v := of_decide_eq_true hv
    refine iff_of_true (returns_ok p) ?_
    cases p <;> simp only [value] at hvalue <;> omega
  | none =>
    refine iff_of_false (not_returns_error _) fun hv => ?_
    have hnone : ∀ p ∈ members, p.value ≠ v := by simpa using hfind
    have hlow : 3 ≠ v := hnone low (by decide)
    have hnormal : 2 ≠ v := hnone normal (by decide)
    have hhigh : 1 ≠ v := hnone high (by decide)
    have hcritical : 0 ≠ v := hnone critical (by decide)
    omega

end RequestPriority

/-- What `get_queue_stats` returns. -/
structure QueueStats where
  queueSize : ℕ
  byModel : Dict String ℕ
  byPriority : Dict String ℕ
  maxQueueSize : ℤ

namespace RequestScheduler

/-- One round of the loop of `get_queue_stats` on `(model_counts, priority_counts)`. The name of a
priority is a key of `priority_counts` from the start, so reading it cannot fail. -/
def countRequest (counts : Dict String ℕ × Dict String ℕ) (request : ScheduledRequest) :
    Except Error (Dict String ℕ × Dict String ℕ) :=
  match RequestPriority.ofValue request.priority with
  | .ok p => .ok (bump counts.1 request.modelId, bump counts.2 p.name)
  | .error e => .error e

/-- `{p.name: 0 for p in RequestPriority}`. -/
def noPriorityCounts : Dict String ℕ :=
  Dict.ofKeys (RequestPriority.members.map RequestPriority.name) 0

/-- Get queue statistics. -/
def getQueueStats (s : RequestScheduler) : Except Error QueueStats :=
  match s.queue.foldlM countRequest (∅, noPriorityCounts) with
  | .ok counts => .ok
      { queueSize := s.queue.length
        byModel := counts.1
        byPriority := counts.2
        maxQueueSize := s.maxQueueSize }
  | .error e => .error e

/-- A request whose priority is a value of the enum. -/
def HasLevel (request : ScheduledRequest) : Prop := 0 ≤ request.priority ∧ request.priority ≤ 3

instance (request : ScheduledRequest) : Decidable (HasLevel request) :=
  inferInstanceAs (Decidable (_ ∧ _))

/-! ## The counting loop -/

/-- `counts'` counts the requests of `queue` on top of `counts`. -/
structure Counted (counts counts' : Dict String ℕ × Dict String ℕ) (queue : List ScheduledRequest) :
    Prop where
  models : counts'.1.sumBy id = counts.1.sumBy id + queue.length
  priorities : counts'.2.sumBy id = counts.2.sumBy id + queue.length
  ofModel : ∀ m, counts'.1.getD m 0 = counts.1.getD m 0 + queue.countP fun r => r.modelId = m

theorem sumBy_bump (counts : Dict String ℕ) (key : String) :
    (bump counts key).sumBy id = counts.sumBy id + 1 := Dict.sumBy_add counts key 1

theorem counted_nil (counts : Dict String ℕ × Dict String ℕ) : Counted counts counts [] :=
  ⟨rfl, rfl, fun _ => rfl⟩

theorem Counted.cons {counts counts' : Dict String ℕ × Dict String ℕ} {r : ScheduledRequest}
    {queue : List ScheduledRequest} {name : String}
    (h : Counted (bump counts.1 r.modelId, bump counts.2 name) counts' queue) :
    Counted counts counts' (r :: queue) where
  models := by
    have hmodels := h.models
    rw [sumBy_bump] at hmodels
    rw [hmodels, List.length_cons]
    omega
  priorities := by
    have hpriorities := h.priorities
    rw [sumBy_bump] at hpriorities
    rw [hpriorities, List.length_cons]
    omega
  ofModel m := by
    rw [h.ofModel m, getD_bump, List.countP_cons]
    simp only [decide_eq_true_eq]
    omega

/-- The loop counts every request, as long as all priorities have a level. -/
theorem foldlM_countRequest {queue : List ScheduledRequest} (h : ∀ r ∈ queue, HasLevel r)
    (counts : Dict String ℕ × Dict String ℕ) :
    ∃ counts', queue.foldlM countRequest counts = .ok counts' ∧ Counted counts counts' queue := by
  induction queue generalizing counts with
  | nil => exact ⟨counts, rfl, counted_nil counts⟩
  | cons r queue ih =>
    obtain ⟨p, hp⟩ := RequestPriority.ofValue_returns.mpr (h r List.mem_cons_self)
    obtain ⟨counts', hfold, hcounted⟩ := ih (fun q hq => h q (List.mem_cons_of_mem r hq))
      (bump counts.1 r.modelId, bump counts.2 p.name)
    refine ⟨counts', ?_, hcounted.cons⟩
    rw [List.foldlM_cons]
    unfold countRequest
    rw [hp]
    exact hfold

/-- One priority without a level ends the loop. -/
theorem foldlM_countRequest_of_not {queue : List ScheduledRequest}
    (h : ∃ r ∈ queue, ¬ HasLevel r) (counts : Dict String ℕ × Dict String ℕ) :
    ¬ Returns (queue.foldlM countRequest counts) := by
  induction queue generalizing counts with
  | nil => simp at h
  | cons r queue ih =>
    rw [List.foldlM_cons]
    unfold countRequest
    cases hp : RequestPriority.ofValue r.priority with
    | error e => exact not_returns_error e
    | ok p =>
      have hlevel : HasLevel r := RequestPriority.ofValue_returns.mp ⟨p, hp⟩
      obtain ⟨q, hq, hnot⟩ := h
      rcases List.mem_cons.mp hq with rfl | hq
      · exact absurd hlevel hnot
      · exact ih ⟨q, hq, hnot⟩ _

/-- The statistics exist, both tables add up to the size of the queue, and a model's count is the
number of its queued requests. -/
def StatsConsistent (s : RequestScheduler) : Prop :=
  ∃ stats, s.getQueueStats = .ok stats ∧ stats.queueSize = s.queue.length ∧
    stats.byModel.sumBy id = stats.queueSize ∧ stats.byPriority.sumBy id = stats.queueSize ∧
    ∀ m, stats.byModel.getD m 0 = s.queue.countP fun r => r.modelId = m

theorem statsConsistent_iff {s : RequestScheduler} :
    s.StatsConsistent ↔ ∀ r ∈ s.queue, HasLevel r := by
  constructor
  · rintro ⟨stats, hstats, -⟩
    by_contra hlevel
    push Not at hlevel
    refine foldlM_countRequest_of_not hlevel (∅, noPriorityCounts) ?_
    unfold getQueueStats at hstats
    cases hfold : s.queue.foldlM countRequest (∅, noPriorityCounts) with
    | ok counts => exact returns_ok counts
    | error e => simp [hfold] at hstats
  · intro h
    obtain ⟨counts, hfold, hcounted⟩ := foldlM_countRequest h (∅, noPriorityCounts)
    have hmodels := hcounted.models
    have hpriorities := hcounted.priorities
    have hzero : noPriorityCounts.sumBy id = 0 := by decide
    refine ⟨⟨s.queue.length, counts.1, counts.2, s.maxQueueSize⟩, ?_, rfl, ?_, ?_, fun m => ?_⟩
    · unfold getQueueStats
      rw [hfold]
    · rw [hmodels]
      exact Nat.zero_add _
    · rw [hpriorities, hzero]
      exact Nat.zero_add _
    · rw [hcounted.ofModel m]
      exact Nat.zero_add _

/-! ## Histories -/

/-- An accepted request has a level. -/
def AcceptsLevel (s : RequestScheduler) : Op → Prop
  | .enqueue request _ => s.Accepts request → HasLevel request
  | _ => True

/-- What a `dequeue` leaves was there before. -/
theorem mem_queue_of_dequeue {s : RequestScheduler} {clock : ℕ → ℤ} {r : ScheduledRequest}
    (h : r ∈ (s.dequeue clock).2.queue) : r ∈ s.queue := by
  rw [(dequeueLoop_perm clock 0 s.queue.length s.queue).mem_iff]
  exact List.mem_append_right _ (List.mem_append_right _ h)

/-- A queue of requests with levels stays one exactly when the call accepts none without. -/
theorem acceptsLevel_iff {s : RequestScheduler} (h : ∀ r ∈ s.queue, HasLevel r) (op : Op) :
    s.AcceptsLevel op ↔ ∀ r ∈ (step s op).queue, HasLevel r := by
  cases op with
  | enqueue request now =>
    show (s.Accepts request → HasLevel request) ↔ ∀ r ∈ (s.enqueue request).2.queue, HasLevel r
    by_cases haccepts : s.Accepts request
    · have hperm := queue_enqueue haccepts
      constructor
      · intro hlevel r hr
        rcases List.mem_cons.mp (hperm.mem_iff.mp hr) with rfl | hr
        · exact hlevel haccepts
        · exact h r hr
      · exact fun hall _ => hall request (hperm.mem_iff.mpr List.mem_cons_self)
    · rw [enqueue_snd_of_not haccepts]
      exact iff_of_true (fun hacc => absurd hacc haccepts) h
  | dequeue clock =>
    exact iff_of_true trivial fun r hr => h r (mem_queue_of_dequeue hr)
  | peek => exact iff_of_true trivial h
  | setUserQuota u q => exact iff_of_true trivial h

/-- The statistics are right throughout a history exactly when every request it accepts has one of
the four priorities. -/
theorem queueStats_consistent_iff (maxQueueSize : ℤ) (tr : List Op) :
    (∀ pre, pre <+: tr → (run step (init maxQueueSize) pre).StatsConsistent) ↔
      Along step AcceptsLevel (init maxQueueSize) tr := by
  refine forall_prefix_iff_along ?_ (fun pre hpre op => ?_) tr
  · exact statsConsistent_iff.mpr fun r hr => absurd hr List.not_mem_nil
  · rw [run_snoc, statsConsistent_iff]
    exact acceptsLevel_iff (statsConsistent_iff.mp hpre) op

/-- A request of priority 5 is accepted and queued, and there are no statistics. -/
theorem queueStats_priority_five :
    let r : ScheduledRequest := { priority := 5, requestId := "r1", timestamp := 0 }
    let s := run step (init 10) [.enqueue r 0]
    ((init 10).enqueue r).1 = true ∧ s.queue = [r] ∧
      s.getQueueStats = .error ⟨"ValueError", "5 is not a valid RequestPriority"⟩ ∧
      ¬ s.StatsConsistent := by
  refine ⟨by decide, by decide, rfl, ?_⟩
  rw [statsConsistent_iff]
  decide

end RequestScheduler

end PyStreamAI
