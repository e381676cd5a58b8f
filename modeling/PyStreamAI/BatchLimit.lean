import PyStreamAI.EngineConservation

/-!
# Batches stay within the limit

`flush` takes the whole queue, whatever its length. The limit holds because of where tasks switch:
an uncontended lock does not suspend, so a call that has started runs until it sleeps or is over. The
call whose `add` fills the queue therefore comes to its own flush before any other call runs
(`Limited`): its request is still queued, so it finds no result of its own to leave the loop with.
-/

open Py Machine

namespace PyStreamAI

variable {ι Input Output World : Type}

namespace Pc

/-- Not started, in `asyncio.sleep`, or over: where a call is while another one runs. -/
def parked : Pc Input Output World → Bool
  | .created | .sleeping | .finished _ => true
  | _ => false

/-- Between `add` and `flush`, without a sleep. -/
def filling : Pc Input Output World → Bool
  | .looping | .polling | .flushing => true
  | _ => false

theorem not_parked_of_filling {pc : Pc Input Output World} (h : pc.filling = true) :
    pc.parked = false := by
  cases pc <;> first | rfl | cases h

end Pc

theorem BatchQueue.shouldFlush_of_full {ρ : Type} {q : BatchQueue ρ} (now : ℚ) (hq : q.queue ≠ [])
    (hfull : q.maxBatchSize ≤ q.queue.length) : q.shouldFlush now = true := by
  unfold shouldFlush
  rw [if_neg hq, if_pos hfull]

theorem BatchQueue.ne_nil_of_shouldFlush {ρ : Type} {q : BatchQueue ρ} {now : ℚ}
    (h : q.shouldFlush now = true) : q.queue ≠ [] := by
  intro hq
  unfold shouldFlush at h
  rw [if_pos hq] at h
  cases h

namespace Engine

variable [DecidableEq ι] (requests : ι → InferenceRequest Input)

/-- A call runs only while the others are parked. -/
def Uninterrupted (s : Engine ι Input Output World) : Action ι Input Output World → Prop
  | .run i => ∀ j, j ≠ i → (s.calls j).pc.parked = true
  | _ => True

instance [Fintype ι] (s : Engine ι Input Output World) :
    ∀ a, Decidable (Uninterrupted s a)
  | .run i => inferInstanceAs (Decidable (∀ j, j ≠ i → (s.calls j).pc.parked = true))
  | .tick _ => isTrue trivial
  | .load _ _ => isTrue trivial

/-- The queue is below the limit, or full with the call that filled it on its way to flush it; and
who is about to flush finds something. -/
structure Limited (n : ℤ) (s : Engine ι Input Output World) : Prop where
  limit : s.batchQueue.maxBatchSize = n
  bounded : (s.batchQueue.queue.length : ℤ) < n ∨ (s.batchQueue.queue.length : ℤ) = n ∧
    ∃ i, requests i ∈ s.batchQueue.queue ∧ (s.calls i).pc.filling = true
  ready : ∀ i, (s.calls i).pc = .flushing → s.batchQueue.queue ≠ []

section Steps

variable {requests} {n : ℤ} {s s' : Engine ι Input Output World} {i : ι}
  {evs : List (Event ι Input Output World)}

omit [DecidableEq ι] in
/-- While call `i` runs, only call `i` can have filled the queue. -/
theorem Limited.filled (h : Limited requests n s)
    (hothers : ∀ j, j ≠ i → (s.calls j).pc.parked = true) :
    (s.batchQueue.queue.length : ℤ) < n ∨ (s.batchQueue.queue.length : ℤ) = n ∧
      requests i ∈ s.batchQueue.queue ∧ (s.calls i).pc.filling = true := by
  rcases h.bounded with hlt | ⟨hlen, k, hk, hfill⟩
  · exact .inl hlt
  · have hki : k = i := by
      by_contra hne
      have hpark := hothers k hne
      rw [Pc.not_parked_of_filling hfill] at hpark
      cases hpark
    subst hki
    exact .inr ⟨hlen, hk, hfill⟩

omit [DecidableEq ι] in
/-- While a call runs that is not on its way from `add` to `flush`, the queue is below the limit. -/
theorem Limited.lt (h : Limited requests n s)
    (hothers : ∀ j, j ≠ i → (s.calls j).pc.parked = true) (hpc : (s.calls i).pc.filling = false) :
    (s.batchQueue.queue.length : ℤ) < n := by
  rcases h.filled hothers with hlt | ⟨-, -, hfill⟩
  · exact hlt
  · rw [hpc] at hfill
    cases hfill

/-- To check the invariant after a move, look at the call that moved. -/
theorem Limited.of_moves (hm : Moves requests s i s' evs)
    (hothers : ∀ j, j ≠ i → (s.calls j).pc.parked = true) (hlimit : s'.batchQueue.maxBatchSize = n)
    (hb : (s'.batchQueue.queue.length : ℤ) < n ∨ (s'.batchQueue.queue.length : ℤ) = n ∧
      requests i ∈ s'.batchQueue.queue ∧ (s'.calls i).pc.filling = true)
    (hready : (s'.calls i).pc = .flushing → s'.batchQueue.queue ≠ []) : Limited requests n s' := by
  refine ⟨hlimit, ?_, fun j hj => ?_⟩
  · rcases hb with hlt | ⟨hlen, hmem, hfill⟩
    · exact .inl hlt
    · exact .inr ⟨hlen, i, hmem, hfill⟩
  · by_cases hji : j = i
    · subst hji
      exact hready hj
    · have hpark := hothers j hji
      rw [calls_of_moves requests hm hji] at hj
      rw [hj] at hpark
      cases hpark

variable [Fintype ι]

omit [DecidableEq ι] in
/-- With distinct ids, a call whose request is queued has no result. -/
theorem get?_eq_none_of_queued (hinj : Function.Injective fun i => (requests i).requestId)
    (ha : Accounted requests s) (hq : requests i ∈ s.batchQueue.queue) :
    s.results.get? (requests i).requestId = none := by
  have hle := (ha.occupied_le (requests i).requestId).trans
    (waiting_le_one hinj s (requests i).requestId)
  have hqueued : 0 < s.queued (requests i).requestId :=
    withId_pos.mpr (List.mem_map.mpr ⟨requests i, hq, rfl⟩)
  by_contra hne
  have hpub : s.published (requests i).requestId = 1 :=
    if_pos (by simpa [Dict.contains, Option.isSome_iff_ne_none] using hne)
  unfold occupied at hle
  omega

/-- The limit survives a move of a call while the others are parked. -/
theorem Limited.move (hinj : Function.Injective fun i => (requests i).requestId) (hn : 1 ≤ n)
    (ha : Accounted requests s) (h : Limited requests n s)
    (hothers : ∀ j, j ≠ i → (s.calls j).pc.parked = true) (hm : Moves requests s i s' evs) :
    Limited requests n s' := by
  have hlt : (s.calls i).pc.filling = false → (s.batchQueue.queue.length : ℤ) < n := h.lt hothers
  have hfilled := h.filled hothers
  -- what is left to show for a move that leaves the queue to a call that does not flush next
  have hkeep := Limited.of_moves (n := n) hm hothers
  cases hm with
  | start hpc =>
    refine hkeep h.limit (.inl (hlt (by rw [hpc]; rfl))) fun hf => ?_
    rw [setCall_calls_self] at hf
    cases hf
  | add hpc =>
    have hbelow := hlt (by rw [hpc]; rfl)
    have hlen : ((s.batchQueue.add s.now (requests i)).queue.length : ℤ) =
        s.batchQueue.queue.length + 1 := by simp [BatchQueue.add]
    refine hkeep h.limit ?_ fun _ => by simp [goto, setCall, BatchQueue.add]
    by_cases hfull : (s.batchQueue.queue.length : ℤ) + 1 < n
    · exact .inl (hlen ▸ hfull)
    · refine .inr ⟨hlen.trans (by omega), ?_, by rw [goto_pc_self]; rfl⟩
      exact List.mem_append_right _ (List.mem_singleton_self _)
  | poll hpc hr =>
    refine hkeep h.limit ?_ fun hf => by rw [goto_pc_self] at hf; cases hf
    rcases hfilled with hbelow | ⟨hlen, hmem, -⟩
    · exact .inl hbelow
    · exact .inr ⟨hlen, hmem, by rw [goto_pc_self]; rfl⟩
  | pop hpc result hr =>
    refine hkeep h.limit ?_ fun hf => by rw [goto_pc_self] at hf; cases hf
    rcases hfilled with hbelow | ⟨-, hmem, -⟩
    · exact .inl hbelow
    · rw [get?_eq_none_of_queued hinj ha hmem] at hr
      cases hr
  | ready hpc hf =>
    refine hkeep h.limit ?_ fun _ => BatchQueue.ne_nil_of_shouldFlush hf
    rcases hfilled with hbelow | ⟨hlen, hmem, -⟩
    · exact .inl hbelow
    · exact .inr ⟨hlen, hmem, by rw [goto_pc_self]; rfl⟩
  | sleep hpc hf =>
    refine hkeep h.limit ?_ fun hf' => by rw [goto_pc_self] at hf'; cases hf'
    rcases hfilled with hbelow | ⟨hlen, hmem, -⟩
    · exact .inl hbelow
    · have hready : s.batchQueue.shouldFlush s.now = true :=
        BatchQueue.shouldFlush_of_full _ (List.ne_nil_of_mem hmem) (by rw [h.limit, hlen])
      rw [hready] at hf
      cases hf
  | flushEmpty hpc hq =>
    refine hkeep h.limit (.inl ?_) fun hf => by rw [goto_pc_self] at hf; cases hf
    show ((0 : ℕ) : ℤ) < n
    omega
  | flush hpc hq =>
    refine hkeep h.limit (.inl ?_) fun hf => by rw [goto_pc_self] at hf; cases hf
    show ((0 : ℕ) : ℤ) < n
    omega
  | stay outcome hpc => exact h
  | wake hpc | publish _ _ hpc | missing _ _ _ _ _ hpc _ | found _ _ _ _ _ _ hpc _
  | predict _ _ _ _ _ hpc =>
    refine hkeep h.limit (.inl (hlt (by rw [hpc]; rfl))) fun hf => ?_
    rw [goto_pc_self] at hf
    cases hf

theorem Limited.step (hinj : Function.Injective fun i => (requests i).requestId) (hn : 1 ≤ n)
    (ha : Accounted requests s) (h : Limited requests n s) {a : Action ι Input Output World}
    (hu : Uninterrupted s a) : Limited requests n (s.step requests a) := by
  cases a with
  | run i => exact h.move hinj hn ha hu (advance_moves requests s i)
  | tick now => exact ⟨h.limit, h.bounded, h.ready⟩
  | load modelId endpoint => exact ⟨h.limit, h.bounded, h.ready⟩

end Steps

/-! ## Schedules -/

section Runs

variable [Fintype ι] {requests} (hinj : Function.Injective fun i => (requests i).requestId) {n : ℤ}
  (hn : 1 ≤ n) (maxWaitMs : ℚ) (modelCache : Dict String (Endpoint Input Output World))
  (world : World) (now : ℚ)
include hinj hn

theorem limited_run {tr : List (Action ι Input Output World)}
    (h : Along (step requests) Uninterrupted (init n maxWaitMs modelCache world now) tr) :
    Limited requests n
      (run (step requests) (init n maxWaitMs modelCache world now) tr) := by
  refine h.history (P := fun _ s => Limited requests n s) ?_ fun pre a hpre hu =>
    hpre.step hinj hn (accounted_run requests n maxWaitMs modelCache world now pre) hu
  refine ⟨rfl, .inl ?_, fun i hi => by cases hi⟩
  show ((0 : ℕ) : ℤ) < n
  omega

/-- **Batch limit.** Where calls with distinct ids switch only when they sleep, are over or have not
started, the queue is below `max_batch_size` whenever none of them is in between, and a call that is
about to flush, `should_flush` having returned `True`, obtains between 1 and `max_batch_size`
requests. -/
theorem batch_limit {tr : List (Action ι Input Output World)}
    (h : Along (step requests) Uninterrupted (init n maxWaitMs modelCache world now) tr) :
    let s := run (step requests) (init n maxWaitMs modelCache world now) tr
    ((∀ i, (s.calls i).pc.parked = true) → (s.batchQueue.size : ℤ) < n) ∧
      ∀ i, (s.calls i).pc = .flushing →
        1 ≤ s.batchQueue.flush.1.length ∧ (s.batchQueue.flush.1.length : ℤ) ≤ n := by
  intro s
  have hs : Limited requests n s := limited_run hinj hn maxWaitMs modelCache world now h
  refine ⟨fun hpark => ?_, fun i hi => ⟨List.length_pos_iff.mpr (hs.ready i hi), ?_⟩⟩
  · rcases hs.bounded with hlt | ⟨-, i, -, hfill⟩
    · exact hlt
    · have hi := hpark i
      rw [Pc.not_parked_of_filling hfill] at hi
      cases hi
  · show (s.batchQueue.queue.length : ℤ) ≤ n
    rcases hs.bounded with hlt | ⟨hlen, -⟩ <;> omega

end Runs

/-- Two calls with ids of their own. -/
def apart (b : Bool) : InferenceRequest Unit := ⟨if b then "r2" else "r1", "m", ()⟩

/-- The first call adds its request and sleeps; the second one fills the queue and comes to the
flush. -/
def secondFills : List (Action Bool Unit Unit Unit) :=
  [.run false, .run false, .run false, .run false, .run true, .run true, .run true, .run true]

theorem batch_limit_secondFills :
    let s := run (step apart) (init 2 100 ∅ () 1) secondFills
    1 ≤ s.batchQueue.flush.1.length ∧ (s.batchQueue.flush.1.length : ℤ) ≤ 2 :=
  (@batch_limit Bool Unit Unit Unit _ apart _ (by decide) 2 (by decide) 100 ∅ () 1 secondFills
    (by decide +kernel)).2 true rfl

end Engine

end PyStreamAI
