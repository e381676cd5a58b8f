import Mathlib.Data.Prod.Lex
import Mathlib.Algebra.Order.Ring.Cast
import Mathlib.Tactic.Linarith
import PyStreamAI.Py.HeapScan
import PyStreamAI.RequestScheduler

/-!
# The deadline scheduler

The heap holds requests under their timeouts; with one timeout, the smaller priority value comes
first. The deadline of a request, its timestamp plus its timeout, is what decides whether it has
expired and plays no part in the order. So `dequeue` drops only expired requests and returns a live
one if there is one, and it is the one of the earliest deadline as long as timeouts and deadlines
agree on who is first (`earliestDeadline_run`).
-/

open Py Machine Heapq

namespace PyStreamAI

namespace ScheduledRequest

/-- The deadline, in milliseconds. -/
def deadline (r : ScheduledRequest) : ℚ := (r.timestamp : ℚ) / 1000 + r.timeoutMs

/-- What requests are ordered by in the heap. -/
def timeoutKey (r : ScheduledRequest) : ℚ ×ₗ ℤ := toLex (r.timeoutMs, r.priority)

theorem isExpired_iff (r : ScheduledRequest) (now : ℤ) :
    r.isExpired now = true ↔ r.deadline < (now : ℚ) / 1000 := by
  unfold isExpired deadline
  rw [decide_eq_true_iff, Int.cast_sub, sub_div, lt_sub_iff_add_lt']

theorem isExpired_mono {r : ScheduledRequest} {t t' : ℤ} (h : t ≤ t') (he : r.isExpired t = true) :
    r.isExpired t' = true := by
  rw [isExpired_iff] at he ⊢
  have hle : (t : ℚ) ≤ t' := Int.cast_le.mpr h
  linarith

end ScheduledRequest

/-- Schedule requests by deadline. -/
structure DeadlineScheduler where
  queue : List (ℚ × ScheduledRequest)
  deriving DecidableEq

namespace DeadlineScheduler

/-- The order of the tuples `(timeout_ms, request)`. -/
def entryLt (p q : ℚ × ScheduledRequest) : Bool :=
  if p.1 = q.1 then p.2.lt q.2 else decide (p.1 < q.1)

/-- `DeadlineScheduler()`. -/
def init : DeadlineScheduler := ⟨[]⟩

/-- Enqueue under the timeout. -/
def enqueue (s : DeadlineScheduler) (request : ScheduledRequest) : DeadlineScheduler :=
  ⟨heappush entryLt s.queue (request.timeoutMs, request)⟩

/-- The loop of `dequeue`: `clock i` is the date read in round `i`, `rounds` the number of queued
requests. -/
def dequeueLoop (clock : ℕ → ℤ) (i : ℕ) :
    ℕ → List (ℚ × ScheduledRequest) → Option ScheduledRequest × List (ℚ × ScheduledRequest)
  | 0, queue => (none, queue)
  | rounds + 1, queue =>
    match heappop entryLt queue with
    | none => (none, queue)
    | some ((_, request), queue) =>
      if request.isExpired (clock i) then dequeueLoop clock (i + 1) rounds queue
      else (some request, queue)

/-- Dequeue the first request that is not expired. -/
def dequeue (s : DeadlineScheduler) (clock : ℕ → ℤ) :
    Option ScheduledRequest × DeadlineScheduler :=
  let (request, queue) := dequeueLoop clock 0 s.queue.length s.queue
  (request, ⟨queue⟩)

/-- The dates a call reads, one after the other; they never go back. -/
structure Clock where
  read : ℕ → ℤ
  mono : ∀ i j, i ≤ j → read i ≤ read j

instance : CoeFun Clock fun _ => ℕ → ℤ := ⟨Clock.read⟩

/-- A call on a scheduler, with the clock it reads. -/
inductive Op
  | enqueue (request : ScheduledRequest)
  | dequeue (clock : Clock)

/-- The scheduler after a call. -/
def step (s : DeadlineScheduler) : Op → DeadlineScheduler
  | .enqueue request => s.enqueue request
  | .dequeue clock => (s.dequeue clock).2

/-- The queued requests. -/
def requests (s : DeadlineScheduler) : List ScheduledRequest := s.queue.map Prod.snd

/-! ## The heap -/

/-- The order of an entry. -/
def entryKey (p : ℚ × ScheduledRequest) : ℚ ×ₗ ℤ := toLex (p.1, p.2.priority)

theorem entryLt_iff (p q : ℚ × ScheduledRequest) :
    entryLt p q = true ↔ entryKey p < entryKey q := by
  unfold entryLt entryKey
  rw [Prod.Lex.toLex_lt_toLex]
  by_cases h : p.1 = q.1
  · rw [if_pos h, ScheduledRequest.lt, decide_eq_true_iff]
    simp [h]
  · rw [if_neg h, decide_eq_true_iff]
    simp [h]

/-- The queue is a heap of requests under their timeouts. -/
structure Heaped (queue : List (ℚ × ScheduledRequest)) : Prop where
  heap : IsHeap entryKey queue
  keyed : ∀ p ∈ queue, p.1 = p.2.timeoutMs

theorem heaped_nil : Heaped [] := ⟨isHeap_nil, fun _ hp => absurd hp List.not_mem_nil⟩

theorem Heaped.key_eq {queue : List (ℚ × ScheduledRequest)} (h : Heaped queue)
    {p : ℚ × ScheduledRequest} (hp : p ∈ queue) : entryKey p = p.2.timeoutKey := by
  unfold entryKey ScheduledRequest.timeoutKey
  rw [h.keyed p hp]

theorem Heaped.enqueue {s : DeadlineScheduler} (h : Heaped s.queue) (request : ScheduledRequest) :
    Heaped (s.enqueue request).queue := by
  refine ⟨h.heap.heappush entryLt_iff _, fun p hp => ?_⟩
  rcases List.mem_cons.mp ((heappush_perm entryLt _ _).mem_iff.mp hp) with rfl | hp
  · rfl
  · exact h.keyed p hp

/-! ## What a dequeue does -/

/-- The loop of `dequeue` is the scan for a live item. -/
theorem dequeueLoop_eq_popLive (clock : ℕ → ℤ) (i rounds : ℕ)
    (queue : List (ℚ × ScheduledRequest)) :
    dequeueLoop clock i rounds queue =
      ((popLive entryLt (fun j p => p.2.isExpired (clock j)) i rounds queue).1.map Prod.snd,
        (popLive entryLt (fun j p => p.2.isExpired (clock j)) i rounds queue).2) := by
  induction rounds generalizing i queue with
  | zero => rfl
  | succ rounds ih =>
    rw [dequeueLoop, popLive]
    cases heappop entryLt queue with
    | none => rfl
    | some popped =>
      dsimp only
      split_ifs
      · exact ih (i + 1) popped.2
      · rfl

theorem heaped_step {s : DeadlineScheduler} (h : Heaped s.queue) (op : Op) :
    Heaped (s.step op).queue := by
  cases op with
  | enqueue request => exact h.enqueue request
  | dequeue clock =>
    show Heaped (dequeueLoop clock 0 s.queue.length s.queue).2
    rw [dequeueLoop_eq_popLive]
    rcases h.heap.popLive_cases entryLt_iff (fun j p => p.2.isExpired (clock j)) 0 rfl with
      ⟨hnone, -⟩ | ⟨p, rest, dropped, hsome, hscan⟩
    · rw [hnone]
      exact heaped_nil
    · rw [hsome]
      exact ⟨hscan.isHeap, fun q hq => h.keyed q (hscan.perm.mem_iff.mpr
        (List.mem_append_right _ (List.mem_cons_of_mem p hq)))⟩

theorem heaped_run (tr : List Op) : Heaped (run step init tr).queue :=
  run_invariant (I := fun s : DeadlineScheduler => Heaped s.queue) heaped_nil
    (fun _ h op => heaped_step h op) tr

/-! ## The contract -/

/-- The date of the last reading of a dequeue, which reads the clock once for each request it takes
out. -/
def lastReading (s : DeadlineScheduler) (clock : Clock) : ℤ :=
  clock (s.queue.length - (s.dequeue clock).2.queue.length - 1)

/-- `dequeue` returns `None` exactly when every queued request is expired, else a live one, and drops
expired requests only. -/
structure ServesLive (s : DeadlineScheduler) (clock : Clock) : Prop where
  none_iff : (s.dequeue clock).1 = none ↔
    ∀ r ∈ s.requests, r.isExpired (s.lastReading clock) = true
  live : ∀ r, (s.dequeue clock).1 = some r → r.isExpired (s.lastReading clock) = false
  kept : ∃ dropped, s.requests.Perm
      (dropped ++ ((s.dequeue clock).1.toList ++ (s.dequeue clock).2.requests)) ∧
    ∀ d ∈ dropped, d.isExpired (s.lastReading clock) = true

/-- The request that is returned has the earliest deadline of the live ones. -/
def ServesEarliest (s : DeadlineScheduler) (clock : Clock) : Prop :=
  ∀ r, (s.dequeue clock).1 = some r → ∀ q ∈ s.requests,
    q.isExpired (s.lastReading clock) = false → r.deadline ≤ q.deadline

/-- Every dequeue serves a live request of the earliest deadline. -/
def KeepsDeadlines (s : DeadlineScheduler) : Op → Prop
  | .dequeue clock => s.ServesLive clock ∧ s.ServesEarliest clock
  | .enqueue _ => True

/-- `dequeue` can come to the live request `r` at reading `i` of the clock: it takes the requests out
in order of timeout and priority value, one at each reading, and those before `r` are expired when
their turn comes. -/
def CanReach (s : DeadlineScheduler) (clock : Clock) (i : ℕ) (r : ScheduledRequest) : Prop :=
  Reaches ScheduledRequest.timeoutKey (fun i r => r.isExpired (clock i)) s.requests i r

/-- No request that is live at `now` has an earlier deadline than `r`. -/
def Earliest (s : DeadlineScheduler) (now : ℤ) (r : ScheduledRequest) : Prop :=
  ∀ q ∈ s.requests, q.isExpired now = false → r.deadline ≤ q.deadline

/-- The requests that `dequeue` can come to have the earliest deadline. -/
def TimeoutsAgree (s : DeadlineScheduler) : Op → Prop
  | .dequeue clock => ∀ i r, s.CanReach clock i r → s.Earliest (clock i) r
  | .enqueue _ => True

/-- Unless all requests are expired in the end, one that `dequeue` can come to has the earliest
deadline. -/
def SomeTimeoutAgrees (s : DeadlineScheduler) : Op → Prop
  | .dequeue clock => (∃ r ∈ s.requests, r.isExpired (clock (s.queue.length - 1)) = false) →
    ∃ i r, s.CanReach clock i r ∧ s.Earliest (clock i) r
  | .enqueue _ => True

/-- The queued requests differ in timeout or priority value. -/
def KeysDiffer (s : DeadlineScheduler) : Prop :=
  (s.requests.map ScheduledRequest.timeoutKey).Nodup

section Contract

variable {s : DeadlineScheduler} (h : Heaped s.queue) (clock : Clock)
include h

/-- All `dequeue` can do: find every request expired at its turn, or return a live one that it can
come to, at its last reading, with the expired ones before it dropped. -/
theorem dequeue_cases :
    (s.dequeue clock = (none, ⟨[]⟩) ∧ ∀ r ∈ s.requests,
      r.isExpired (clock (s.requests.countP (fun q => decide (q.timeoutKey ≤ r.timeoutKey)) - 1)) =
        true) ∨
    ∃ r s' dropped i, s.dequeue clock = (some r, s') ∧ s.lastReading clock = clock i ∧
      s.CanReach clock i r ∧ s.requests.Perm (dropped ++ r :: s'.requests) ∧
      ∀ d ∈ dropped, d.isExpired (clock i) = true := by
  have hdead : ∀ i j (p : ℚ × ScheduledRequest), i ≤ j → p.2.isExpired (clock i) = true →
      p.2.isExpired (clock j) = true :=
    fun i j p hij => ScheduledRequest.isExpired_mono (clock.mono i j hij)
  unfold lastReading dequeue
  rw [dequeueLoop_eq_popLive]
  rcases h.heap.popLive_cases entryLt_iff (fun j p => p.2.isExpired (clock j)) 0 rfl with
    ⟨hnone, dropped, hperm, hpasses⟩ | ⟨p, rest, dropped, hsome, hscan⟩
  · rw [hnone]
    refine .inl ⟨rfl, List.forall_mem_map.mpr fun p hp => ?_⟩
    have hall : s.queue.Perm (dropped ++ []) := by
      rw [List.append_nil]
      exact hperm
    have hturn := hpasses.dead_at_turn hdead hall (hperm.mem_iff.mp hp)
    have hcount : s.requests.countP (fun q => decide (q.timeoutKey ≤ p.2.timeoutKey)) =
        s.queue.countP fun q => decide (entryKey q ≤ entryKey p) := by
      unfold requests
      rw [List.countP_map]
      exact List.countP_congr fun q hq => by simp [h.key_eq hq, h.key_eq hp]
    rw [hcount]
    exact hturn
  · rw [hsome]
    have hlen := hscan.perm.length_eq
    rw [List.length_append, List.length_cons] at hlen
    refine .inr ⟨p.2, ⟨rest⟩, dropped.map Prod.snd, dropped.length, rfl, ?_, ?_, ?_, ?_⟩
    · show clock (s.queue.length - rest.length - 1) = _
      rw [show s.queue.length - rest.length - 1 = dropped.length by omega]
    · exact (hscan.reaches hdead).map (fun q hq => h.key_eq hq) fun _ _ => rfl
    · simpa [requests] using hscan.perm.map Prod.snd
    · exact List.forall_mem_map.mpr fun d hd => hscan.passes.dead_of_mem hdead (by omega) hd

theorem servesLive : s.ServesLive clock := by
  rcases dequeue_cases h clock with ⟨hnone, hall⟩ | ⟨r, s', dropped, i, hsome, hlast, hreach, hperm,
    hdrop⟩
  · have hlast : s.lastReading clock = clock (s.queue.length - 1) := by
      unfold lastReading
      rw [hnone]
      rfl
    have hexpired : ∀ r ∈ s.requests, r.isExpired (s.lastReading clock) = true := by
      intro r hr
      have hle : s.requests.countP (fun q => decide (q.timeoutKey ≤ r.timeoutKey)) ≤
          s.queue.length := List.countP_le_length.trans (List.length_map _).le
      rw [hlast]
      exact ScheduledRequest.isExpired_mono (clock.mono _ _ (by omega)) (hall r hr)
    refine ⟨iff_of_true (by rw [hnone]) hexpired, fun r hr => ?_, s.requests, ?_, hexpired⟩
    · rw [hnone] at hr
      cases hr
    · rw [hnone]
      exact (List.append_nil _).symm ▸ List.Perm.refl _
  · refine ⟨iff_of_false ?_ fun hall => ?_, fun r' hr' => ?_, dropped, ?_, hlast ▸ hdrop⟩
    · rw [hsome]
      exact Option.some_ne_none r
    · have hexp := hall r hreach.mem
      rw [hlast, hreach.live] at hexp
      cases hexp
    · rw [hsome] at hr'
      rw [hlast, ← Option.some.inj hr']
      exact hreach.live
    · rw [hsome]
      exact hperm

/-- Where timeouts and deadlines agree, the earliest deadline is served. -/
theorem servesEarliest_of_agree (hagree : s.TimeoutsAgree (.dequeue clock)) :
    s.ServesEarliest clock := by
  intro r hr
  rcases dequeue_cases h clock with ⟨hnone, -⟩ | ⟨r', s', dropped, i, hsome, hlast, hreach, -⟩
  · rw [hnone] at hr
    cases hr
  · rw [hsome] at hr
    rw [hlast, ← Option.some.inj hr]
    exact hagree i r' hreach

/-- Where the earliest deadline is served, some request of least timeout has it. -/
theorem someAgrees_of_servesEarliest (hserves : s.ServesEarliest clock) :
    s.SomeTimeoutAgrees (.dequeue clock) := by
  rintro ⟨q, hq, hlive⟩
  have hlast := (servesLive h clock).none_iff
  rcases dequeue_cases h clock with ⟨hnone, -⟩ | ⟨r, s', dropped, i, hsome, hlast, hreach, -⟩
  · rw [hnone] at hlast
    have hexp := hlast.mp rfl q hq
    unfold lastReading at hexp
    rw [hnone] at hexp
    exact absurd (hlive.symm.trans hexp) Bool.false_ne_true
  · refine ⟨i, r, hreach, ?_⟩
    have hearliest := hserves r (by rw [hsome])
    rw [hlast] at hearliest
    exact hearliest

/-- Where requests differ in timeout or priority value, `dequeue` can come to one of them only. -/
theorem agree_of_servesEarliest (hn : s.KeysDiffer) (hserves : s.ServesEarliest clock) :
    s.TimeoutsAgree (.dequeue clock) := by
  intro i r hreach
  rcases dequeue_cases h clock with ⟨-, hall⟩ | ⟨r', s', dropped, i', hsome, hlast, hreach', -⟩
  · have hexp := hall r hreach.mem
    rw [hreach.turn_eq hn, hreach.live] at hexp
    cases hexp
  · obtain ⟨rfl, rfl⟩ := hreach.unique hn hreach'
    have hearliest := hserves r (by rw [hsome])
    rw [hlast] at hearliest
    exact hearliest

end Contract

/-- **Deadlines.** In a run in which, at every dequeue, the requests that it can come to in the order
of timeout and priority value have the earliest deadline, every dequeue returns a live request of the
earliest deadline, `None` exactly when there is no live request, and drops expired ones only.
Conversely one such request has the earliest deadline whenever that is so, and there is only one
wherever the queued requests differ in timeout or priority value. -/
theorem earliestDeadline_run (tr : List Op) :
    (Along step TimeoutsAgree init tr →
      ∀ pre op, pre ++ [op] <+: tr → (run step init pre).KeepsDeadlines op) ∧
    ((∀ pre op, pre ++ [op] <+: tr → (run step init pre).KeepsDeadlines op) →
      Along step (fun s op => s.SomeTimeoutAgrees op ∧ (s.KeysDiffer → s.TimeoutsAgree op)) init
        tr) := by
  constructor
  · intro halong pre op hpre
    have hagree := along_iff_forall.mp halong pre op hpre
    cases op with
    | enqueue request => trivial
    | dequeue clock =>
      exact ⟨servesLive (heaped_run pre) clock, servesEarliest_of_agree (heaped_run pre) clock hagree⟩
  · intro hkeeps
    refine along_iff_forall.mpr fun pre op hpre => ?_
    cases op with
    | enqueue request => exact ⟨trivial, fun _ => trivial⟩
    | dequeue clock =>
      have hserves := (hkeeps pre _ hpre).2
      exact ⟨someAgrees_of_servesEarliest (heaped_run pre) clock hserves,
        fun hn => agree_of_servesEarliest (heaped_run pre) clock hn hserves⟩

/-- A request that arrived `after` microseconds after the start. -/
def arrival (requestId : String) (after : ℤ) (timeoutMs : ℚ) : ScheduledRequest :=
  { priority := 2, requestId, timestamp := after, timeoutMs }

/-- A request due after a second, and one that comes 0.8 seconds later and is due after 1.3
seconds. -/
def lateShort : DeadlineScheduler :=
  run step init [.enqueue (arrival "a" 0 1000), .enqueue (arrival "b" 800000 500)]

/-- At 0.9 seconds both are live, and the later deadline is served. -/
theorem lateShort_overtakes :
    (lateShort.dequeue fun _ => 900000).1 = some (arrival "b" 800000 500) ∧
      (arrival "a" 0 1000).isExpired 900000 = false ∧
      (arrival "a" 0 1000).deadline < (arrival "b" 800000 500).deadline ∧
      ¬ lateShort.KeepsDeadlines (.dequeue ⟨fun _ => 900000, fun _ _ _ => Int.le_refl _⟩) := by
  have hserved : (lateShort.dequeue fun _ => 900000).1 = some (arrival "b" 800000 500) := by
    decide +kernel
  have hlive : (arrival "a" 0 1000).isExpired 900000 = false := by decide +kernel
  have hearlier : (arrival "a" 0 1000).deadline < (arrival "b" 800000 500).deadline := by
    decide +kernel
  have hqueued : arrival "a" 0 1000 ∈ lateShort.requests := by decide +kernel
  refine ⟨hserved, hlive, hearlier, fun hkeeps => ?_⟩
  exact absurd hearlier (not_lt.mpr (hkeeps.2 _ hserved _ hqueued hlive))

end DeadlineScheduler

end PyStreamAI
