import Mathlib.Algebra.Order.Archimedean.Basic
import Mathlib.Tactic.Linarith
import PyStreamAI.EngineCancellation
import PyStreamAI.EngineDelivery
import PyStreamAI.Fairness

/-!
# Every call finishes

In an infinite schedule that runs each call again and again, under a clock that passes every time,
every `infer` call returns or raises (`infer_finishes`). The measure is `work`: a step that does not
lower it is `Quiet`, it leaves the queue and the published results alone. A call cannot go round
its loop for ever through quiet steps.
-/

open Py Machine

namespace PyStreamAI

variable {ι Input Output World : Type}

namespace Pc

/-- What a call still has to do: its own steps, and the requests it carries. -/
def work : Pc Input Output World → ℕ
  | .created => 5
  | .adding => 4
  | .batching batch _ _ => batch.length + 1
  | .predicting batch _ _ _ _ => batch.length + 1
  | .finished _ => 0
  | .looping | .polling | .sleeping | .flushing => 1

/-- The steps left until the call publishes its batch. -/
def stepsLeft : Pc Input Output World → ℕ
  | .batching _ groups _ => 2 * groups.length + 1
  | .predicting _ _ _ groups _ => 2 * groups.length + 2
  | _ => 0

/-- The call is in the loop without a batch. -/
def cycling : Pc Input Output World → Bool
  | .looping | .polling | .sleeping | .flushing => true
  | _ => false

/-- A flushed batch is not empty. -/
def Filled : Pc Input Output World → Prop
  | .batching batch _ _ => batch ≠ []
  | .predicting batch _ _ _ _ => batch ≠ []
  | _ => True

theorem batch_of_stepsLeft {pc : Pc Input Output World} (h : pc.stepsLeft = 0) :
    pc.batch = [] := by
  cases pc <;> first | rfl | simp [stepsLeft] at h

theorem waits_of_cycling {pc : Pc Input Output World} (h : pc.cycling = true) :
    pc.waits = true := by
  cases pc <;> first | rfl | cases h

end Pc

namespace Engine

variable [Fintype ι] [DecidableEq ι] {requests : ι → InferenceRequest Input}

/-- The work of the calls. -/
def callWork (s : Engine ι Input Output World) : ℕ := s.total fun _ pc => pc.work

/-- The work of the calls and of the queued requests. -/
def work (s : Engine ι Input Output World) : ℕ := s.callWork + 2 * s.batchQueue.queue.length

/-- A step that leaves the results, the queue and the time of its first request alone. -/
structure Quiet (s s' : Engine ι Input Output World) : Prop where
  results : s'.results = s.results
  queue : s'.batchQueue.queue = s.batchQueue.queue
  batchQueue : s.batchQueue.queue ≠ [] → s'.batchQueue = s.batchQueue

omit [Fintype ι] [DecidableEq ι] in
theorem Quiet.of_eq {s s' : Engine ι Input Output World} (hr : s'.results = s.results)
    (hq : s'.batchQueue = s.batchQueue) : Quiet s s' :=
  ⟨hr, by rw [hq], fun _ => hq⟩

/-- Where a quiet move takes call `i`. -/
def QuietPc (requests : ι → InferenceRequest Input) (s : Engine ι Input Output World) (i : ι)
    (pc' : Pc Input Output World) : Prop :=
  match (s.calls i).pc with
  | .created | .adding => False
  | .looping => s.results.get? (requests i).requestId = none ∧ pc' = .polling
  | .polling => pc' = if s.batchQueue.shouldFlush s.now then .flushing else .sleeping
  | .sleeping => pc' = .looping
  | .flushing => s.batchQueue.queue = [] ∧ pc' = .looping
  | .batching _ groups _ => 0 < pc'.stepsLeft ∧ pc'.stepsLeft < 2 * groups.length + 1
  | .predicting _ _ _ groups _ => 0 < pc'.stepsLeft ∧ pc'.stepsLeft < 2 * groups.length + 2
  | .finished _ => True

/-- A move changes the work as it changes that of its call and of the queue. -/
theorem work_add_of_moves {s s' : Engine ι Input Output World} {i : ι}
    {evs : List (Event ι Input Output World)} (hm : Moves requests s i s' evs) :
    s'.work + ((s.calls i).pc.work + 2 * s.batchQueue.queue.length) =
      s.work + ((s'.calls i).pc.work + 2 * s'.batchQueue.queue.length) := by
  have ht : s'.callWork + (s.calls i).pc.work = s.callWork + (s'.calls i).pc.work :=
    total_of_moves requests hm fun _ pc => pc.work
  unfold work
  omega

/-- A move lowers the work or is quiet. -/
theorem work_of_moves {s s' : Engine ι Input Output World} {i : ι}
    {evs : List (Event ι Input Output World)} (hm : Moves requests s i s' evs)
    (hfilled : (s.calls i).pc.Filled) :
    s'.work < s.work ∨
      (s'.work = s.work ∧ Quiet s s') ∧ QuietPc requests s i (s'.calls i).pc := by
  have hwork := work_add_of_moves hm
  have hlt (h : (s'.calls i).pc.work + 2 * s'.batchQueue.queue.length <
      (s.calls i).pc.work + 2 * s.batchQueue.queue.length) : s'.work < s.work := by omega
  have heq (h : (s'.calls i).pc.work + 2 * s'.batchQueue.queue.length =
      (s.calls i).pc.work + 2 * s.batchQueue.queue.length) : s'.work = s.work := by omega
  unfold QuietPc
  cases hm with
  | start h =>
    refine .inl (hlt ?_)
    rw [setCall_calls_self, h]
    show 4 + 2 * s.batchQueue.queue.length < 5 + 2 * s.batchQueue.queue.length
    omega
  | add h =>
    refine .inl (hlt ?_)
    rw [goto_pc_self, h]
    show 1 + 2 * (s.batchQueue.queue ++ [requests i]).length < 4 + 2 * s.batchQueue.queue.length
    rw [List.length_append, List.length_singleton]
    omega
  | pop h result hr =>
    refine .inl (hlt ?_)
    rw [goto_pc_self, h]
    show 0 + 2 * s.batchQueue.queue.length < 1 + 2 * s.batchQueue.queue.length
    omega
  | flush h hq =>
    have hpos : 0 < s.batchQueue.queue.length := List.length_pos_of_ne_nil hq
    refine .inl (hlt ?_)
    rw [goto_pc_self, h]
    show s.batchQueue.queue.length + 1 + 0 < 1 + 2 * s.batchQueue.queue.length
    omega
  | publish batch results h =>
    rw [h] at hfilled
    have hpos : 0 < batch.length := List.length_pos_of_ne_nil hfilled
    refine .inl (hlt ?_)
    rw [goto_pc_self, h]
    show 1 + 2 * s.batchQueue.queue.length < batch.length + 1 + 2 * s.batchQueue.queue.length
    omega
  | flushEmpty h hq =>
    refine .inr ⟨⟨heq ?_, rfl, hq.symm, fun hne => absurd hq hne⟩, ?_⟩
    · rw [goto_pc_self, h, hq]
      rfl
    · rw [goto_pc_self, h]
      exact ⟨hq, rfl⟩
  | stay outcome h =>
    refine .inr ⟨⟨rfl, .of_eq rfl rfl⟩, ?_⟩
    rw [h]
    trivial
  | poll h hr =>
    refine .inr ⟨⟨heq (by rw [goto_pc_self, h]; rfl), .of_eq rfl rfl⟩, ?_⟩
    rw [goto_pc_self, h]
    exact ⟨hr, rfl⟩
  | ready h hf =>
    refine .inr ⟨⟨heq (by rw [goto_pc_self, h]; rfl), .of_eq rfl rfl⟩, ?_⟩
    rw [goto_pc_self, h]
    exact (if_pos hf).symm
  | sleep h hf =>
    refine .inr ⟨⟨heq (by rw [goto_pc_self, h]; rfl), .of_eq rfl rfl⟩, ?_⟩
    rw [goto_pc_self, h]
    exact (if_neg (by rw [hf]; decide)).symm
  | wake h =>
    refine .inr ⟨⟨heq (by rw [goto_pc_self, h]; rfl), .of_eq rfl rfl⟩, ?_⟩
    rw [goto_pc_self, h]
  | missing batch modelId rs groups results h _ | found batch modelId rs groups results _ h _ =>
    refine .inr ⟨⟨heq (by rw [goto_pc_self, h]; rfl), .of_eq rfl rfl⟩, ?_⟩
    rw [goto_pc_self, h]
    simp only [Pc.stepsLeft, List.length_cons]
    omega
  | predict batch endpoint rs groups results h =>
    refine .inr ⟨⟨heq (by rw [goto_pc_self, h]; rfl), .of_eq rfl rfl⟩, ?_⟩
    rw [goto_pc_self, h]
    simp only [Pc.stepsLeft]
    omega

/-! ## Invariants -/

/-- Batches in flight are not empty, and a waiting batch has a start time that counts. -/
structure Timed (s : Engine ι Input Output World) : Prop where
  filled : ∀ i, (s.calls i).pc.Filled
  now_pos : 0 < s.now
  first : s.batchQueue.queue ≠ [] → ∃ t, s.batchQueue.firstRequestTime = some t ∧ t ≠ 0

omit [Fintype ι] in
theorem filled_of_moves {s s' : Engine ι Input Output World} {i : ι}
    {evs : List (Event ι Input Output World)} (hm : Moves requests s i s' evs)
    (h : (s.calls i).pc.Filled) : (s'.calls i).pc.Filled := by
  cases hm with
  | start hpc =>
    rw [setCall_calls_self]
    trivial
  | stay outcome hpc => exact h
  | flush hpc hq =>
    rw [goto_pc_self]
    exact hq
  | missing batch modelId rs groups results hpc _ | found batch modelId rs groups results _ hpc _
  | predict batch _ rs groups results hpc =>
    rw [hpc] at h
    rw [goto_pc_self]
    exact h
  | add _ | pop _ _ _ | publish _ _ _ | flushEmpty _ _ | poll _ _ | ready _ _ | sleep _ _
  | wake _ =>
    rw [goto_pc_self]
    trivial

omit [Fintype ι] in
theorem now_of_moves {s s' : Engine ι Input Output World} {i : ι}
    {evs : List (Event ι Input Output World)} (hm : Moves requests s i s' evs) :
    s'.now = s.now := by
  cases hm <;> rfl

omit [Fintype ι] in
theorem Timed.of_moves {s s' : Engine ι Input Output World} {i : ι}
    {evs : List (Event ι Input Output World)} (hm : Moves requests s i s' evs) (h : Timed s) :
    Timed s' := by
  refine ⟨forall_pc_of_moves requests hm (filled_of_moves hm (h.filled i)) fun j _ => h.filled j,
    ?_, ?_⟩
  · rw [now_of_moves hm]
    exact h.now_pos
  · intro hq
    cases hm with
    | add hpc =>
      by_cases hs : s.batchQueue.queue = []
      · exact ⟨s.now, if_pos hs, h.now_pos.ne'⟩
      · obtain ⟨t, ht, hne⟩ := h.first hs
        exact ⟨t, (if_neg hs).trans ht, hne⟩
    | flush _ _ => exact absurd rfl hq
    | flushEmpty _ _ => exact absurd rfl hq
    | _ => exact h.first hq

omit [Fintype ι] in
theorem Timed.step {s : Engine ι Input Output World} (h : Timed s)
    {a : Action ι Input Output World} (ha : ∀ now, a = .tick now → 0 < now) :
    Timed (s.step requests a) := by
  cases a with
  | tick now => exact ⟨h.filled, ha now rfl, h.first⟩
  | load modelId endpoint => exact ⟨h.filled, h.now_pos, h.first⟩
  | run i => exact h.of_moves (advance_moves requests s i)

/-! ## Fair schedules -/

/-- Every call is run again and again, under a clock with positive readings that passes every
time. -/
structure Fair (requests : ι → InferenceRequest Input) (s₀ : Engine ι Input Output World)
    (sched : ℕ → Action ι Input Output World) : Prop where
  runs : ∀ i, Recurring sched (· = .run i)
  now_pos : ∀ n now, sched n = .tick now → 0 < now
  clock : ∀ t, ∃ n, ∀ m, n ≤ m → t ≤ (stateAt (step requests) s₀ sched m).now

variable {s₀ : Engine ι Input Output World} {sched : ℕ → Action ι Input Output World}

omit [Fintype ι] in
theorem Fair.timed (hf : Fair requests s₀ sched) (h0 : Timed s₀) (n : ℕ) :
    Timed (stateAt (step requests) s₀ sched n) :=
  stateAt_mono (n := 0) h0 (fun m _ h => h.step (hf.now_pos m)) (Nat.zero_le n)

/-- A step lowers the work or is quiet. -/
theorem work_step {s : Engine ι Input Output World} (h : Timed s)
    (a : Action ι Input Output World) :
    (s.step requests a).work < s.work ∨
      (s.step requests a).work = s.work ∧ Quiet s (s.step requests a) := by
  cases a with
  | run i => exact (work_of_moves (advance_moves requests s i) (h.filled i)).imp_right And.left
  | tick now => exact Or.inr ⟨rfl, .of_eq rfl rfl⟩
  | load modelId endpoint => exact Or.inr ⟨rfl, .of_eq rfl rfl⟩

/-- From the moment `n` on no step lowers the work. -/
structure Stuck (requests : ι → InferenceRequest Input) (s₀ : Engine ι Input Output World)
    (sched : ℕ → Action ι Input Output World) (n : ℕ) : Prop where
  fair : Fair requests s₀ sched
  timed : Timed s₀
  work_eq : ∀ m, n ≤ m → (stateAt (step requests) s₀ sched m).work =
    (stateAt (step requests) s₀ sched n).work

namespace Stuck

variable {n : ℕ}

theorem not_lt (h : Stuck requests s₀ sched n) {m : ℕ} (hm : n ≤ m) :
    ¬(stateAt (step requests) s₀ sched (m + 1)).work <
      (stateAt (step requests) s₀ sched m).work := by
  rw [h.work_eq m hm, h.work_eq (m + 1) (by omega)]
  exact lt_irrefl _

theorem quiet (h : Stuck requests s₀ sched n) {m : ℕ} (hm : n ≤ m) :
    Quiet (stateAt (step requests) s₀ sched m) (stateAt (step requests) s₀ sched (m + 1)) := by
  have hlt := h.not_lt hm
  rw [stateAt_succ] at hlt ⊢
  exact ((work_step (h.fair.timed h.timed m) _).resolve_left hlt).2

/-- Call `i` comes to its next run where it is now, and that run is quiet. -/
theorem next (h : Stuck requests s₀ sched n) (i : ι) {k : ℕ} (hk : n ≤ k) :
    ∃ m, k ≤ m ∧ (stateAt (step requests) s₀ sched m).calls i =
        (stateAt (step requests) s₀ sched k).calls i ∧
      QuietPc requests (stateAt (step requests) s₀ sched m) i
        ((stateAt (step requests) s₀ sched (m + 1)).calls i).pc := by
  have hkeep : ∀ (s : Engine ι Input Output World) a, ¬a = .run i →
      (s.step requests a).calls i = s.calls i := by
    intro s a ha
    cases a with
    | run j =>
      refine calls_of_moves requests (advance_moves requests s j) ?_
      rintro rfl
      exact ha rfl
    | tick now => rfl
    | load modelId endpoint => rfl
  obtain ⟨m, hm, hrun, hcall⟩ := exists_next (s := s₀) (f := fun s => s.calls i) (h.fair.runs i)
    hkeep k
  refine ⟨m, hm, hcall, ?_⟩
  have hlt := h.not_lt (hk.trans hm)
  rw [stateAt_succ, hrun] at hlt ⊢
  have hmove := work_of_moves (advance_moves requests _ i) ((h.fair.timed h.timed m).filled i)
  exact (hmove.resolve_left hlt).2

/-- No call holds a batch. -/
theorem stepsLeft_eq_zero (h : Stuck requests s₀ sched n) (i : ι) {k : ℕ} (hk : n ≤ k) :
    ((stateAt (step requests) s₀ sched k).calls i).pc.stepsLeft = 0 := by
  induction hd : ((stateAt (step requests) s₀ sched k).calls i).pc.stepsLeft
    using Nat.strong_induction_on generalizing k with
  | _ d ih =>
    obtain ⟨m, hm, hcall, hq⟩ := h.next i hk
    unfold QuietPc at hq
    rw [hcall] at hq
    by_contra hne
    generalize ((stateAt (step requests) s₀ sched k).calls i).pc = pc at hd hq
    cases pc with
    | batching batch groups results =>
      have hzero := ih _ (hd ▸ hq.2) (by omega : n ≤ m + 1) rfl
      omega
    | predicting batch endpoint rs groups results =>
      have hzero := ih _ (hd ▸ hq.2) (by omega : n ≤ m + 1) rfl
      omega
    | _ => exact hne hd.symm

/-- A call that has not finished goes round its loop. -/
theorem cycling (h : Stuck requests s₀ sched n) {i : ι} {k : ℕ} (hk : n ≤ k)
    (hi : ((stateAt (step requests) s₀ sched k).calls i).pc.ended = false) :
    ((stateAt (step requests) s₀ sched k).calls i).pc.cycling = true := by
  have hzero := h.stepsLeft_eq_zero i hk
  obtain ⟨m, hm, hcall, hq⟩ := h.next i hk
  unfold QuietPc at hq
  rw [hcall] at hq
  generalize ((stateAt (step requests) s₀ sched k).calls i).pc = pc at hi hzero hq ⊢
  cases pc with
  | created => exact hq.elim
  | adding => exact hq.elim
  | batching batch groups results => simp [Pc.stepsLeft] at hzero
  | predicting batch endpoint rs groups results => simp [Pc.stepsLeft] at hzero
  | finished outcome => cases hi
  | _ => rfl

/-- Such a call comes back to the test of its loop. -/
theorem exists_looping (h : Stuck requests s₀ sched n) {i : ι} {k : ℕ} (hk : n ≤ k)
    (hi : ((stateAt (step requests) s₀ sched k).calls i).pc.cycling = true) :
    ∃ m, k ≤ m ∧ ((stateAt (step requests) s₀ sched m).calls i).pc = .looping := by
  -- from a position whose next quiet move leads to the test
  have hlast : ∀ l, n ≤ l → ((stateAt (step requests) s₀ sched l).calls i).pc = .sleeping ∨
      ((stateAt (step requests) s₀ sched l).calls i).pc = .flushing →
      ∃ m, l ≤ m ∧ ((stateAt (step requests) s₀ sched m).calls i).pc = .looping := by
    intro l hl hpc
    obtain ⟨m, hm, hcall, hq⟩ := h.next i hl
    unfold QuietPc at hq
    rw [hcall] at hq
    rcases hpc with hpc | hpc
    · rw [hpc] at hq
      exact ⟨m + 1, by omega, hq⟩
    · rw [hpc] at hq
      exact ⟨m + 1, by omega, hq.2⟩
  cases hpc : ((stateAt (step requests) s₀ sched k).calls i).pc with
  | looping => exact ⟨k, le_rfl, hpc⟩
  | sleeping => exact hlast k hk (Or.inl hpc)
  | flushing => exact hlast k hk (Or.inr hpc)
  | polling =>
    obtain ⟨m, hm, hcall, hq⟩ := h.next i hk
    unfold QuietPc at hq
    rw [hcall, hpc] at hq
    dsimp only at hq
    obtain ⟨l, hl, hloop⟩ := hlast (m + 1) (by omega) (by split_ifs at hq <;> simp [hq])
    exact ⟨l, by omega, hloop⟩
  | _ => rw [hpc] at hi; cases hi

/-- It comes back again and again. -/
theorem looping_again (h : Stuck requests s₀ sched n) {i : ι}
    (hi : ((stateAt (step requests) s₀ sched n).calls i).pc.ended = false) {k : ℕ}
    (hk : n ≤ k) :
    ∃ m, k ≤ m ∧ ((stateAt (step requests) s₀ sched m).calls i).pc = .looping := by
  induction k, hk using Nat.le_induction with
  | base => exact h.exists_looping le_rfl (h.cycling le_rfl hi)
  | succ k hk ih =>
    obtain ⟨m, hm, hpc⟩ := ih
    obtain ⟨l, hl, hcall, hq⟩ := h.next i (hk.trans hm)
    unfold QuietPc at hq
    rw [hcall, hpc] at hq
    obtain ⟨l', hl', hpc'⟩ := h.exists_looping (k := l + 1) (by omega)
      (by rw [hq.2]; rfl)
    exact ⟨l', by omega, hpc'⟩

/-- The published results stay. -/
theorem results_eq (h : Stuck requests s₀ sched n) {m : ℕ} (hm : n ≤ m) :
    (stateAt (step requests) s₀ sched m).results =
      (stateAt (step requests) s₀ sched n).results := by
  induction m, hm using Nat.le_induction with
  | base => rfl
  | succ m hm ih => rw [(h.quiet hm).results, ih]

/-- The queue stays. -/
theorem queue_eq (h : Stuck requests s₀ sched n) {m : ℕ} (hm : n ≤ m) :
    (stateAt (step requests) s₀ sched m).batchQueue.queue =
      (stateAt (step requests) s₀ sched n).batchQueue.queue := by
  induction m, hm using Nat.le_induction with
  | base => rfl
  | succ m hm ih => rw [(h.quiet hm).queue, ih]

/-- A queue with requests stays, with its start time. -/
theorem batchQueue_eq (h : Stuck requests s₀ sched n)
    (hq : (stateAt (step requests) s₀ sched n).batchQueue.queue ≠ []) {m : ℕ} (hm : n ≤ m) :
    (stateAt (step requests) s₀ sched m).batchQueue =
      (stateAt (step requests) s₀ sched n).batchQueue := by
  induction m, hm using Nat.le_induction with
  | base => rfl
  | succ m hm ih => rw [(h.quiet hm).batchQueue (h.queue_eq hm ▸ hq), ih]

/-- A call that goes round its loop has no result, and it finds no batch due. -/
theorem nothing_due (h : Stuck requests s₀ sched n) {i : ι}
    (hi : ((stateAt (step requests) s₀ sched n).calls i).pc.ended = false) {k : ℕ}
    (hk : n ≤ k) :
    (stateAt (step requests) s₀ sched n).results.get? (requests i).requestId = none ∧
    ∃ m, k ≤ m ∧ ((stateAt (step requests) s₀ sched m).batchQueue.shouldFlush
        (stateAt (step requests) s₀ sched m).now = true →
      (stateAt (step requests) s₀ sched (m + 1)).batchQueue.queue = []) := by
  obtain ⟨m₁, hm₁, hpc⟩ := h.looping_again hi hk
  obtain ⟨m₂, hm₂, hcall, hq⟩ := h.next i (hk.trans hm₁)
  unfold QuietPc at hq
  rw [hcall, hpc] at hq
  obtain ⟨hnone, hpolling⟩ := hq
  rw [h.results_eq (by omega)] at hnone
  refine ⟨hnone, ?_⟩
  obtain ⟨m₃, hm₃, hcall, hq⟩ := h.next i (k := m₂ + 1) (by omega)
  unfold QuietPc at hq
  rw [hcall, hpolling] at hq
  refine ⟨m₃, by omega, fun hflush => ?_⟩
  dsimp only at hq
  rw [if_pos hflush] at hq
  obtain ⟨m₄, hm₄, hcall', hq'⟩ := h.next i (k := m₃ + 1) (by omega)
  unfold QuietPc at hq'
  rw [hcall', hq] at hq'
  by_contra hne
  rw [h.queue_eq (by omega)] at hne hq'
  exact hne hq'.1

/-- A queue with requests falls due. -/
theorem eventually_due (h : Stuck requests s₀ sched n)
    (hq : (stateAt (step requests) s₀ sched n).batchQueue.queue ≠ []) :
    ∃ k, n ≤ k ∧ ∀ m, k ≤ m → (stateAt (step requests) s₀ sched m).batchQueue.shouldFlush
      (stateAt (step requests) s₀ sched m).now = true := by
  obtain ⟨t, ht, hne⟩ := (h.fair.timed h.timed n).first hq
  obtain ⟨N, hN⟩ := h.fair.clock
    (t + (stateAt (step requests) s₀ sched n).batchQueue.maxWaitMs / 1000)
  refine ⟨max n N, le_max_left _ _, fun m hm => ?_⟩
  rw [h.batchQueue_eq hq ((le_max_left _ _).trans hm)]
  have hnow := hN m ((le_max_right _ _).trans hm)
  unfold BatchQueue.shouldFlush
  rw [if_neg hq, ht]
  have hwait : (stateAt (step requests) s₀ sched n).batchQueue.maxWaitMs ≤
      ((stateAt (step requests) s₀ sched m).now - t) * 1000 := by linarith
  split_ifs
  · rfl
  · exact decide_eq_true ⟨hne, hwait⟩

/-- While a call is not finished, its request is queued or has a result, so it cannot be stuck. -/
theorem finished (h : Stuck requests s₀ sched n) {i : ι}
    (hcons : (stateAt (step requests) s₀ sched n).waiting requests (requests i).requestId =
      (stateAt (step requests) s₀ sched n).occupied (requests i).requestId) :
    ((stateAt (step requests) s₀ sched n).calls i).pc.ended = true := by
  by_contra hi
  rw [Bool.not_eq_true] at hi
  have hwaits : 0 < (stateAt (step requests) s₀ sched n).waiting requests
      (requests i).requestId := by
    have hle := Finset.single_le_sum (f := fun j => waitsAt requests (requests i).requestId j
      ((stateAt (step requests) s₀ sched n).calls j).pc) (fun _ _ => Nat.zero_le _)
      (Finset.mem_univ i)
    have hone : waitsAt requests (requests i).requestId i
        ((stateAt (step requests) s₀ sched n).calls i).pc = 1 :=
      if_pos ⟨rfl, Pc.waits_of_cycling (h.cycling le_rfl hi)⟩
    exact lt_of_lt_of_le (by rw [hone]; exact Nat.one_pos) hle
  have hflight : (stateAt (step requests) s₀ sched n).inFlight (requests i).requestId = 0 := by
    refine Finset.sum_eq_zero fun j _ => ?_
    show withId _ ((stateAt (step requests) s₀ sched n).calls j).pc.batch = 0
    rw [Pc.batch_of_stepsLeft (h.stepsLeft_eq_zero j le_rfl), withId_nil]
  have hq : (stateAt (step requests) s₀ sched n).batchQueue.queue ≠ [] := by
    intro hq
    have hnone := (h.nothing_due hi le_rfl).1
    unfold occupied queued published at hcons
    rw [hq, withId_nil, if_neg (by simp [Dict.contains, hnone])] at hcons
    omega
  obtain ⟨k, hk, hdue⟩ := h.eventually_due hq
  obtain ⟨m, hm, hempty⟩ := (h.nothing_due hi hk).2
  have hnil := hempty (hdue m hm)
  rw [h.queue_eq (by omega)] at hnil
  exact hq hnil

end Stuck

/-! ## Liveness -/

omit [Fintype ι] in
/-- A finished call stays finished, with its outcome. -/
theorem finished_stays {s : Engine ι Input Output World} {i : ι}
    {outcome : Except Error (InferenceResponse Output)}
    (hi : (s.calls i).pc = .finished outcome) (a : Action ι Input Output World) :
    ((s.step requests a).calls i).pc = .finished outcome := by
  cases a with
  | tick now => exact hi
  | load modelId endpoint => exact hi
  | run j =>
    by_cases hj : i = j
    · subst hj
      show ((s.advance requests i).calls i).pc = _
      rw [(run_of_ended requests (by rw [hi]; rfl)).1, hi]
    · show ((s.advance requests j).calls i).pc = _
      rw [calls_of_moves requests (advance_moves requests s j) hj, hi]

/-- While a call is not finished, the work falls again. -/
theorem work_falls (hf : Fair requests s₀ sched) (h0 : Timed s₀) {i : ι}
    (hcons : ∀ n, (stateAt (step requests) s₀ sched n).waiting requests (requests i).requestId =
      (stateAt (step requests) s₀ sched n).occupied (requests i).requestId) {n : ℕ}
    (hi : ((stateAt (step requests) s₀ sched n).calls i).pc.ended = false) :
    ∃ m, n ≤ m ∧ (stateAt (step requests) s₀ sched m).work <
      (stateAt (step requests) s₀ sched n).work := by
  by_contra hno
  have hanti : ∀ m, (stateAt (step requests) s₀ sched (m + 1)).work ≤
      (stateAt (step requests) s₀ sched m).work := by
    intro m
    rw [stateAt_succ]
    have hstep : (step requests _ (sched m)).work < _ ∨ (step requests _ (sched m)).work = _ ∧ _ :=
      work_step (hf.timed h0 m) (sched m)
    rcases hstep with hlt | ⟨heq, -⟩
    · exact hlt.le
    · exact heq.le
  have hstuck : Stuck requests s₀ sched n := by
    refine ⟨hf, h0, fun m hm => le_antisymm (stateAt_antitone hanti hm) ?_⟩
    by_contra hlt
    exact hno ⟨m, hm, not_le.mp hlt⟩
  rw [hstuck.finished (hcons n)] at hi
  cases hi

/-- A call whose request is never lost ends in a fair schedule. -/
theorem ends_of_fair (hf : Fair requests s₀ sched) (h0 : Timed s₀) {i : ι}
    (hcons : ∀ n, (stateAt (step requests) s₀ sched n).waiting requests (requests i).requestId =
      (stateAt (step requests) s₀ sched n).occupied (requests i).requestId) :
    ∃ n, ((stateAt (step requests) s₀ sched n).calls i).pc.ended = true := by
  obtain ⟨n, -, hn⟩ := eventually_of_descent (μ := work) (Q := fun s : Engine ι Input Output World =>
    (s.calls i).pc.ended = true) (fun n hn => work_falls hf h0 hcons (Bool.not_eq_true _ ▸ hn)) 0
  exact ⟨n, hn⟩

variable {maxBatchSize : ℤ} {maxWaitMs : ℚ}
  {modelCache : Dict String (Endpoint Input Output World)} {world : World} {now : ℚ}

/-- In every fair schedule of calls with distinct ids each call returns or raises, with the result
that was computed for its own request. -/
theorem infer_finishes (hinj : Function.Injective fun i => (requests i).requestId) (hnow : 0 < now)
    (hf : Fair requests (init maxBatchSize maxWaitMs modelCache world now) sched) (i : ι) :
    ∃ n latencyMs result,
      Computed (events requests (init maxBatchSize maxWaitMs modelCache world now)
        ((List.range n).map sched)) (requests i) result ∧
      ∀ m, n ≤ m → ((stateAt (step requests) (init maxBatchSize maxWaitMs modelCache world now)
        sched m).calls i).pc = .finished (deliver (requests i) latencyMs result) := by
  have h0 : Timed (init maxBatchSize maxWaitMs modelCache world now :
      Engine ι Input Output World) := ⟨fun _ => trivial, hnow, fun h => absurd rfl h⟩
  obtain ⟨n, hn⟩ := ends_of_fair hf h0 (i := i) fun m =>
    conserved_of_injective hinj maxBatchSize maxWaitMs modelCache world now _ _
  have hrun : Sourced requests _ _ := sourced_run maxBatchSize maxWaitMs modelCache world now
    ((List.range n).map sched)
  have hs := hrun.pcs i
  cases hpc : ((stateAt (step requests) (init maxBatchSize maxWaitMs modelCache world now)
      sched n).calls i).pc with
  | finished outcome =>
    have hfin := hpc
    unfold stateAt at hpc
    rw [hpc] at hs
    obtain ⟨latencyMs, result, k, hk, hcomp, rfl⟩ := hs
    obtain rfl : k = i := hinj hk
    exact ⟨n, latencyMs, result, hcomp, fun m hm => stateAt_mono (I := fun s : Engine ι Input
      Output World => (s.calls k).pc = _) hfin (fun l _ h => finished_stays h _) hm⟩
  | _ => rw [hpc] at hn; cases hn

omit [Fintype ι] in
/-- A call does not set the clock. -/
theorem now_run (s : Engine ι Input Output World) (i : ι) :
    (s.step requests (.run i)).now = s.now := now_of_moves (advance_moves requests s i)

/-- The clock ticks and both calls run, in turn. -/
def takingTurns (n : ℕ) : Action Bool ℕ ℕ Unit :=
  if n % 3 = 0 then .tick (n + 1) else .run (n % 3 == 1)

theorem takingTurns_tick {n : ℕ} (h : n % 3 = 0) : takingTurns n = .tick (n + 1) := if_pos h

theorem takingTurns_run {n : ℕ} (h : n % 3 ≠ 0) : takingTurns n = .run (n % 3 == 1) := if_neg h

theorem now_takingTurns (s : Engine Bool ℕ ℕ Unit) (n : ℕ) :
    (stateAt (step twoIds) s takingTurns (n + 1)).now = (3 * (n / 3) + 1 : ℕ) := by
  induction n with
  | zero =>
    show ((0 : ℕ) : ℚ) + 1 = ((0 + 1 : ℕ) : ℚ)
    norm_num
  | succ n ih =>
    rw [stateAt_succ]
    by_cases hn : (n + 1) % 3 = 0
    · have hdiv : 3 * ((n + 1) / 3) + 1 = n + 1 + 1 := by omega
      rw [takingTurns_tick hn, hdiv]
      show ((n + 1 : ℕ) : ℚ) + 1 = ((n + 1 + 1 : ℕ) : ℚ)
      rw [Nat.cast_add_one (n + 1)]
    · have hdiv : (n + 1) / 3 = n / 3 := by omega
      rw [takingTurns_run hn, now_run, hdiv, ih]

theorem fair_takingTurns (s : Engine Bool ℕ ℕ Unit) : Fair twoIds s takingTurns where
  runs b n := by
    cases b with
    | true =>
      refine ⟨3 * n + 1, by omega, ?_⟩
      have hmod : (3 * n + 1) % 3 = 1 := by omega
      rw [takingTurns_run (by omega), hmod]
      rfl
    | false =>
      refine ⟨3 * n + 2, by omega, ?_⟩
      have hmod : (3 * n + 2) % 3 = 2 := by omega
      rw [takingTurns_run (by omega), hmod]
      rfl
  now_pos n now h := by
    by_cases hn : n % 3 = 0
    · rw [takingTurns_tick hn] at h
      rw [← Action.tick.inj h]
      exact Nat.cast_add_one_pos n
    · rw [takingTurns_run hn] at h
      cases h
  clock t := by
    obtain ⟨n, hn⟩ := exists_nat_gt t
    refine ⟨n + 3, fun m hm => ?_⟩
    obtain ⟨k, rfl⟩ : ∃ k, m = k + 1 := ⟨m - 1, by omega⟩
    rw [now_takingTurns]
    have hle : n ≤ 3 * (k / 3) + 1 := by omega
    exact hn.le.trans (by exact_mod_cast hle)

/-- Two calls of one model that take turns both finish. -/
theorem takingTurns_finishes :
    let s₀ : Engine Bool ℕ ℕ Unit := init 32 100 (Dict.empty.set "m" doubling) () 1
    ∀ b, ∃ n latencyMs result,
      Computed (events twoIds s₀ ((List.range n).map takingTurns)) (twoIds b) result ∧
      ∀ m, n ≤ m → ((stateAt (step twoIds) s₀ takingTurns m).calls b).pc =
        .finished (deliver (twoIds b) latencyMs result) := by
  intro s₀ b
  exact infer_finishes twoIds_injective one_pos (fair_takingTurns s₀) b

end Engine

end PyStreamAI
