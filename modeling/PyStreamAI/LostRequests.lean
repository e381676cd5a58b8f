import PyStreamAI.EngineLiveness

/-!
# Lost requests

A call that is cancelled while it awaits an endpoint takes the batch it flushed with it, the
requests of other calls included, and nothing puts them back. In a fair schedule in which calls may
be cancelled, a call that is not cancelled itself goes on for ever exactly when its request is
dropped in this way (`infer_ends_iff`): as calls are cancelled at most once each, the schedule is in
the end one without cancellations, and there a call whose request is kept ends (`ends_of_fair`).
-/

open Py Machine

namespace PyStreamAI

variable {ι Input Output World : Type}

namespace Pc

theorem ended_of_waits {pc : Pc Input Output World} (h : pc.waits = true) :
    pc.ended = false := by
  cases pc <;> first | rfl | cases h

end Pc

namespace Engine

/-- Call `i` is cancelled at an await. -/
def Cancels (i : ι) (s : Engine ι Input Output World) (a : CancelAction ι Input Output World) :
    Prop :=
  a = .cancel i ∧ (s.calls i).pc.suspended = true

/-- A call is cancelled with the request of call `i` in its batch. -/
def Drops (requests : ι → InferenceRequest Input) (i : ι) (s : Engine ι Input Output World)
    (a : CancelAction ι Input Output World) : Prop :=
  ∃ j, Cancels j s a ∧ requests i ∈ (s.calls j).pc.batch

variable [Fintype ι]

/-- Call `i` waits for as many requests as there are under its id. -/
def Kept (requests : ι → InferenceRequest Input) (i : ι) (s : Engine ι Input Output World) : Prop :=
  s.waiting requests (requests i).requestId = s.occupied (requests i).requestId

/-- Call `i` waits, and its request is neither queued nor in flight nor published. -/
structure Lost (requests : ι → InferenceRequest Input) (i : ι) (s : Engine ι Input Output World) :
    Prop where
  waits : (s.calls i).pc.waits = true
  gone : s.occupied (requests i).requestId = 0

variable [DecidableEq ι] (requests : ι → InferenceRequest Input)

/-! ## What a cancellation takes away -/

theorem total_goto (s : Engine ι Input Output World) (j : ι) (pc : Pc Input Output World)
    (f : ι → Pc Input Output World → ℕ) :
    (s.goto j pc).total f + f j (s.calls j).pc = s.total f + f j pc :=
  sum_update (fun k (c : Call Input Output World) => f k c.pc) s.calls j { s.calls j with pc }

/-- The batch of the call is no longer in flight. -/
theorem occupied_cancel {s : Engine ι Input Output World} {j : ι}
    (h : (s.calls j).pc.suspended = true) (id : String) :
    (s.cancel j).occupied id + withId id (s.calls j).pc.batch = s.occupied id := by
  have hflight : (s.goto j (.finished (.error cancelledError))).inFlight id +
      withId id (s.calls j).pc.batch = s.inFlight id + 0 :=
    total_goto s j _ fun _ pc => withId id pc.batch
  rw [cancel_of_suspended h]
  unfold occupied
  show s.queued id + _ + s.published id + _ = s.queued id + _ + s.published id
  omega

/-- The calls under other ids go on waiting. -/
theorem waiting_cancel (s : Engine ι Input Output World) {j : ι} {id : String}
    (hj : (requests j).requestId ≠ id) :
    (s.cancel j).waiting requests id = s.waiting requests id := by
  by_cases h : (s.calls j).pc.suspended = true
  · have hwait := total_goto s j (.finished (.error cancelledError)) (waitsAt requests id)
    have hzero : ∀ pc : Pc Input Output World, waitsAt requests id j pc = 0 :=
      fun pc => if_neg fun hw => hj hw.1
    rw [hzero, hzero] at hwait
    rw [cancel_of_suspended h]
    exact hwait
  · rw [cancel_of_not_suspended h]

omit [Fintype ι] [DecidableEq ι] in
/-- Publishing merges nothing when there is one request at most. -/
theorem publishedAfter_eq {s : Engine ι Input Output World}
    {batch : List (InferenceRequest Input)} {id : String}
    (h : withId id batch + s.published id ≤ 1) :
    s.publishedAfter batch id = withId id batch + s.published id := by
  unfold publishedAfter published at *
  by_cases hr : s.results.contains id = true
  · rw [if_pos hr] at h
    rw [if_pos (Or.inr hr), if_pos hr]
    omega
  · rw [if_neg hr] at h
    rw [if_neg hr]
    by_cases hb : 0 < withId id batch
    · rw [if_pos (Or.inl hb)]
      omega
    · rw [if_neg (not_or.mpr ⟨hb, hr⟩)]
      omega

/-- A step without a cancellation changes the waiting calls and the occupied requests of an id
alike when there is at most one such request. -/
theorem balance_of_act {s : Engine ι Input Output World} (hc : ∀ i, (s.calls i).pc.Covered)
    {id : String} (hone : s.occupied id ≤ 1) (a : Action ι Input Output World) :
    (s.step requests a).waiting requests id + s.occupied id =
      s.waiting requests id + (s.step requests a).occupied id := by
  cases a with
  | tick now => rfl
  | load modelId endpoint => rfl
  | run i =>
    by_cases hp : ∃ batch results, s.Publishing i batch results
    · obtain ⟨batch, results, hp⟩ := hp
      have hb := balance_of_publish requests (hc i) hp id
      have hflight := s.withId_le_inFlight i id
      rw [hp] at hflight
      simp only [Pc.batch] at hflight
      have hafter : s.publishedAfter batch id = _ :=
        publishedAfter_eq (le_trans (by unfold occupied; omega) hone)
      show (s.advance requests i).waiting requests id + _ =
        _ + (s.advance requests i).occupied id
      omega
    · exact balance_of_moves requests (advance_moves requests s i)
        (fun b r hbr => hp ⟨b, r, hbr⟩) id

/-! ## One step -/

variable {requests} (hinj : Function.Injective fun i => (requests i).requestId)
  {s : Engine ι Input Output World} {i : ι} {a : CancelAction ι Input Output World}
include hinj

omit [DecidableEq ι] in
/-- With distinct ids only call `i` can wait under its id. -/
theorem waiting_own (s : Engine ι Input Output World) (i : ι) :
    s.waiting requests (requests i).requestId = if (s.calls i).pc.waits then 1 else 0 := by
  refine (Finset.sum_eq_single i (fun j _ hj => ?_) fun h => absurd (Finset.mem_univ i) h).trans ?_
  · exact if_neg fun hw => hj (hinj hw.1)
  · simp only [true_and]

omit [Fintype ι] [DecidableEq ι] in
/-- A batch with the id of call `i` has its request. -/
theorem mem_batch_iff (hp : Placed requests s) (i j : ι) :
    requests i ∈ (s.calls j).pc.batch ↔
      0 < withId (requests i).requestId (s.calls j).pc.batch := by
  rw [withId_pos]
  refine ⟨List.mem_map_of_mem, fun hid => ?_⟩
  obtain ⟨r, hr, hid⟩ := List.mem_map.mp hid
  obtain ⟨k, rfl, -⟩ := hp.batch j r hr
  obtain rfl : k = i := hinj hid
  exact hr

/-- While nothing drops the request of a call it is kept. -/
theorem Kept.step (h : Kept requests i s) (hp : Placed requests s) (hown : ¬ Cancels i s a)
    (hdrop : ¬ Drops requests i s a) : Kept requests i (s.cancelStep requests a) := by
  have hle := waiting_le_one hinj s (requests i).requestId
  unfold Kept at h ⊢
  cases a with
  | act a =>
    have hb := balance_of_act requests hp.covered (h ▸ hle) a
    show (s.step requests a).waiting requests _ = (s.step requests a).occupied _
    omega
  | cancel j =>
    show (s.cancel j).waiting requests _ = (s.cancel j).occupied _
    by_cases hs : (s.calls j).pc.suspended = true
    · have hji : j ≠ i := fun e => hown ⟨congrArg _ e, e ▸ hs⟩
      have hnone : ¬ 0 < withId (requests i).requestId (s.calls j).pc.batch := by
        rw [← mem_batch_iff hinj hp i j]
        exact fun hr => hdrop ⟨j, ⟨rfl, hs⟩, hr⟩
      have hocc := occupied_cancel hs (requests i).requestId
      have hwait : (s.cancel j).waiting requests (requests i).requestId = _ :=
        waiting_cancel requests s fun hid => hji (hinj hid)
      omega
    · rw [cancel_of_not_suspended hs]
      exact h

/-- The batch that is dropped had the only request of the call. -/
theorem Kept.lost (h : Kept requests i s) (hown : ¬ Cancels i s a) (hdrop : Drops requests i s a) :
    Lost requests i (s.cancelStep requests a) := by
  obtain ⟨j, ⟨rfl, hs⟩, hr⟩ := hdrop
  have hji : i ≠ j := fun e => hown ⟨by rw [e], e ▸ hs⟩
  have hpos : 0 < withId (requests i).requestId (s.calls j).pc.batch :=
    withId_pos.mpr (List.mem_map_of_mem hr)
  have hocc := occupied_cancel hs (requests i).requestId
  have hwait := waiting_own hinj s i
  unfold Kept at h
  constructor
  · show ((s.cancel j).calls i).pc.waits = true
    rw [cancel_of_suspended hs, calls_goto_of_ne s _ hji]
    by_contra hnot
    rw [if_neg hnot] at hwait
    omega
  · show (s.cancel j).occupied _ = 0
    split_ifs at hwait <;> omega

/-- A lost request stays lost. -/
theorem Lost.step (h : Lost requests i s) (hc : ∀ i, (s.calls i).pc.Covered)
    (hown : ¬ Cancels i s a) : Lost requests i (s.cancelStep requests a) := by
  obtain ⟨hwaits, hgone⟩ := h
  cases a with
  | act a =>
    have hb := balance_of_act requests hc (hgone.trans_le zero_le_one) a
    have hbefore := waiting_own hinj s i
    have hafter := waiting_own hinj (s.step requests a) i
    rw [if_pos hwaits] at hbefore
    constructor
    · show ((s.step requests a).calls i).pc.waits = true
      by_contra hnot
      rw [if_neg hnot] at hafter
      omega
    · show (s.step requests a).occupied _ = 0
      split_ifs at hafter <;> omega
  | cancel j =>
    by_cases hs : (s.calls j).pc.suspended = true
    · have hji : i ≠ j := fun e => hown ⟨by rw [e], e ▸ hs⟩
      have hocc := occupied_cancel hs (requests i).requestId
      constructor
      · show ((s.cancel j).calls i).pc.waits = true
        rw [cancel_of_suspended hs, calls_goto_of_ne s _ hji]
        exact hwaits
      · show (s.cancel j).occupied _ = 0
        omega
    · show Lost requests i (s.cancel j)
      rw [cancel_of_not_suspended hs]
      exact ⟨hwaits, hgone⟩

omit hinj

/-! ## Calls that end -/

omit [Fintype ι] in
/-- A call that has ended stays so. -/
theorem ended_stays (h : (s.calls i).pc.ended = true) (a : CancelAction ι Input Output World) :
    ((s.cancelStep requests a).calls i).pc.ended = true := by
  cases a with
  | act a =>
    cases hpc : (s.calls i).pc with
    | finished outcome =>
      show ((s.step requests a).calls i).pc.ended = true
      rw [finished_stays hpc a]
      rfl
    | _ => rw [hpc] at h; cases h
  | cancel j =>
    show ((s.cancel j).calls i).pc.ended = true
    by_cases hs : (s.calls j).pc.suspended = true
    · have hji : i ≠ j := by
        rintro rfl
        rw [Pc.ended_of_suspended hs] at h
        cases h
      rw [cancel_of_suspended hs, calls_goto_of_ne s _ hji]
      exact h
    · rw [cancel_of_not_suspended hs]
      exact h

omit [Fintype ι] in
theorem ended_of_cancels (h : Cancels i s a) :
    ((s.cancelStep requests a).calls i).pc.ended = true := by
  obtain ⟨rfl, hs⟩ := h
  show ((s.cancel i).calls i).pc.ended = true
  rw [cancel_of_suspended hs, goto_pc_self]
  rfl

/-- The number of calls that have not ended. -/
def alive (s : Engine ι Input Output World) : ℕ := s.total fun _ pc => if pc.ended then 0 else 1

theorem alive_step_le (s : Engine ι Input Output World) (a : CancelAction ι Input Output World) :
    (s.cancelStep requests a).alive ≤ s.alive := by
  refine Finset.sum_le_sum fun i _ => ?_
  dsimp only
  by_cases h : (s.calls i).pc.ended = true
  · rw [if_pos h, if_pos (ended_stays h a)]
  · rw [if_neg h]
    split_ifs <;> omega

theorem alive_lt_of_cancels (h : Cancels i s a) : (s.cancelStep requests a).alive < s.alive := by
  obtain ⟨rfl, hs⟩ := h
  have htotal := total_goto s i (.finished (.error cancelledError))
    fun _ pc => if pc.ended then 0 else 1
  rw [Pc.ended_of_suspended hs] at htotal
  show (s.cancel i).alive < s.alive
  rw [cancel_of_suspended hs]
  unfold alive
  simp only [Pc.ended, if_true, Bool.false_eq_true, if_false] at htotal ⊢
  omega

omit [Fintype ι] in
theorem Timed.cancelStep (h : Timed s) (ha : ∀ now, a = .act (.tick now) → 0 < now) :
    Timed (s.cancelStep requests a) := by
  cases a with
  | act a => exact h.step fun now hnow => ha now (congrArg _ hnow)
  | cancel j =>
    show Timed (s.cancel j)
    by_cases hs : (s.calls j).pc.suspended = true
    · rw [cancel_of_suspended hs]
      refine ⟨fun i => pc_of_others (P := Pc.Filled) (fun _ => calls_goto_of_ne s _) (fun _ => ?_)
        (h.filled i), h.now_pos, h.first⟩
      rw [goto_pc_self]
      trivial
    · rw [cancel_of_not_suspended hs]
      exact h

/-! ## Fair schedules with cancellations -/

/-- Every call is run again and again, under a clock with positive readings that passes every
time, and any call may be cancelled. -/
structure FairCancel (requests : ι → InferenceRequest Input) (s₀ : Engine ι Input Output World)
    (sched : ℕ → CancelAction ι Input Output World) : Prop where
  runs : ∀ i, Recurring sched (· = .act (.run i))
  now_pos : ∀ n now, sched n = .act (.tick now) → 0 < now
  clock : ∀ t, ∃ n, ∀ m, n ≤ m → t ≤ (stateAt (cancelStep requests) s₀ sched m).now

variable {s₀ : Engine ι Input Output World} {sched : ℕ → CancelAction ι Input Output World}

omit [Fintype ι] in
theorem FairCancel.timed (hf : FairCancel requests s₀ sched) (h0 : Timed s₀) (n : ℕ) :
    Timed (stateAt (cancelStep requests) s₀ sched n) :=
  stateAt_mono (n := 0) h0 (fun m _ h => h.cancelStep (hf.now_pos m)) (Nat.zero_le n)

omit [Fintype ι] in
theorem placed_at (h0 : Placed requests s₀) (n : ℕ) :
    Placed requests (stateAt (cancelStep requests) s₀ sched n) :=
  stateAt_mono (n := 0) h0 (fun m _ h => h.step requests (sched m)) (Nat.zero_le n)

variable (requests s₀ sched) in
/-- In the end nothing is cancelled any more. -/
theorem exists_last_cancel :
    ∃ n, ∀ m, n ≤ m → ∀ j, ¬ Cancels j (stateAt (cancelStep requests) s₀ sched m) (sched m) := by
  have hle : ∀ m, (stateAt (cancelStep requests) s₀ sched (m + 1)).alive ≤
      (stateAt (cancelStep requests) s₀ sched m).alive := by
    intro m
    rw [stateAt_succ]
    exact alive_step_le _ _
  obtain ⟨n, hn⟩ := exists_settled (μ := alive) hle
  refine ⟨n, fun m hm j hj => ?_⟩
  have hlt : (stateAt (cancelStep requests) s₀ sched (m + 1)).alive <
      (stateAt (cancelStep requests) s₀ sched m).alive := by
    rw [stateAt_succ]
    exact alive_lt_of_cancels hj
  rw [hn m hm, hn (m + 1) (by omega)] at hlt
  exact lt_irrefl _ hlt

/-- The schedule from the moment `n` on, with a tick of the stopped clock for each cancellation. -/
def tailOf (requests : ι → InferenceRequest Input) (s₀ : Engine ι Input Output World)
    (sched : ℕ → CancelAction ι Input Output World) (n m : ℕ) : Action ι Input Output World :=
  match sched (n + m) with
  | .act a => a
  | .cancel _ => .tick (stateAt (cancelStep requests) s₀ sched (n + m)).now

omit [Fintype ι] in
theorem stateAt_tailOf {n : ℕ}
    (hn : ∀ m, n ≤ m → ∀ j, ¬ Cancels j (stateAt (cancelStep requests) s₀ sched m) (sched m))
    (m : ℕ) :
    stateAt (step requests) (stateAt (cancelStep requests) s₀ sched n)
      (tailOf requests s₀ sched n) m = stateAt (cancelStep requests) s₀ sched (n + m) := by
  refine stateAt_follow (fun m => ?_) m
  have hnone := hn (n + m) (Nat.le_add_right n m)
  rw [stateAt_succ]
  unfold tailOf
  cases ha : sched (n + m) with
  | act a => rfl
  | cancel j =>
    exact (cancel_of_not_suspended fun hs => hnone j ⟨ha, hs⟩).symm

omit [Fintype ι] in
/-- That schedule is fair. -/
theorem FairCancel.tail (hf : FairCancel requests s₀ sched) (h0 : Timed s₀) {n : ℕ}
    (hn : ∀ m, n ≤ m → ∀ j, ¬ Cancels j (stateAt (cancelStep requests) s₀ sched m) (sched m)) :
    Fair requests (stateAt (cancelStep requests) s₀ sched n) (tailOf requests s₀ sched n) where
  runs i k := by
    obtain ⟨m, hm, hrun⟩ := hf.runs i (n + k)
    obtain ⟨d, rfl⟩ := Nat.exists_eq_add_of_le (le_trans (Nat.le_add_right n k) hm)
    refine ⟨d, by omega, ?_⟩
    unfold tailOf
    rw [hrun]
  now_pos k now h := by
    unfold tailOf at h
    cases ha : sched (n + k) with
    | act a =>
      rw [ha] at h
      exact hf.now_pos (n + k) now (ha.trans (congrArg _ h))
    | cancel j =>
      rw [ha] at h
      rw [← Action.tick.inj h]
      exact (hf.timed h0 (n + k)).now_pos
  clock t := by
    obtain ⟨k, hk⟩ := hf.clock t
    refine ⟨k, fun m hm => ?_⟩
    rw [stateAt_tailOf hn]
    exact hk (n + m) (by omega)

/-! ## Which calls end -/

/-- Until its request is dropped, it is kept. -/
theorem kept_until (hinj : Function.Injective fun i => (requests i).requestId)
    (hp : Placed requests s₀) (hk : Kept requests i s₀) {n : ℕ}
    (hown : ∀ m, ¬ Cancels i (stateAt (cancelStep requests) s₀ sched m) (sched m))
    (hdrop : ∀ m, m < n → ¬ Drops requests i (stateAt (cancelStep requests) s₀ sched m) (sched m)) :
    Kept requests i (stateAt (cancelStep requests) s₀ sched n) := by
  induction n with
  | zero => exact hk
  | succ n ih =>
    rw [stateAt_succ]
    exact (ih fun m hm => hdrop m (by omega)).step hinj (placed_at hp n) (hown n)
      (hdrop n (by omega))

/-- Once its request is dropped, it is lost for good. -/
theorem lost_of_drops (hinj : Function.Injective fun i => (requests i).requestId)
    (hp : Placed requests s₀) (hk : Kept requests i s₀)
    (hown : ∀ m, ¬ Cancels i (stateAt (cancelStep requests) s₀ sched m) (sched m))
    (hdrop : ∃ m, Drops requests i (stateAt (cancelStep requests) s₀ sched m) (sched m)) :
    ∃ n, ∀ m, n ≤ m → Lost requests i (stateAt (cancelStep requests) s₀ sched m) := by
  classical
  have hkept := kept_until hinj hp hk hown fun m => Nat.find_min hdrop (m := m)
  refine ⟨Nat.find hdrop + 1, fun m hm => stateAt_mono (n := Nat.find hdrop + 1) ?_ ?_ hm⟩
  · rw [stateAt_succ]
    exact hkept.lost hinj (hown _) (Nat.find_spec hdrop)
  · exact fun m _ h => h.step hinj (placed_at hp m).covered (hown m)

theorem ends_iff (hinj : Function.Injective fun i => (requests i).requestId)
    (hf : FairCancel requests s₀ sched) (hp : Placed requests s₀) (ht : Timed s₀)
    (hk : Kept requests i s₀) :
    (∃ n, ((stateAt (cancelStep requests) s₀ sched n).calls i).pc.ended = true) ↔
      (∃ n, Cancels i (stateAt (cancelStep requests) s₀ sched n) (sched n)) ∨
      ∀ n, ¬ Drops requests i (stateAt (cancelStep requests) s₀ sched n) (sched n) := by
  by_cases hcancel : ∃ n, Cancels i (stateAt (cancelStep requests) s₀ sched n) (sched n)
  · refine iff_of_true ?_ (Or.inl hcancel)
    obtain ⟨n, hn⟩ := hcancel
    refine ⟨n + 1, ?_⟩
    rw [stateAt_succ]
    exact ended_of_cancels hn
  · have hown := not_exists.mp hcancel
    rw [or_iff_right hcancel]
    constructor
    · -- a lost call waits for ever
      rintro ⟨n, hn⟩ m hdrop
      obtain ⟨k, hlost⟩ := lost_of_drops hinj hp hk hown ⟨m, hdrop⟩
      have hended := stateAt_mono (m := max n k) (I := fun s : Engine ι Input Output World =>
        (s.calls i).pc.ended = true) hn (fun l _ h => ended_stays h (sched l)) (le_max_left n k)
      rw [Pc.ended_of_waits (hlost _ (le_max_right n k)).waits] at hended
      cases hended
    · -- after the last cancellation the schedule is a fair one without cancellations
      intro hdrop
      obtain ⟨n, hn⟩ := exists_last_cancel requests s₀ sched
      obtain ⟨m, hm⟩ := ends_of_fair (hf.tail ht hn) (hf.timed ht n) (i := i) fun m => by
        rw [stateAt_tailOf hn]
        exact kept_until hinj hp hk hown fun l _ => hdrop l
      rw [stateAt_tailOf hn] at hm
      exact ⟨n + m, hm⟩

variable {maxBatchSize : ℤ} {maxWaitMs : ℚ}
  {modelCache : Dict String (Endpoint Input Output World)} {world : World} {now : ℚ}

/-- **Cancellation.** In every fair schedule of calls with distinct ids, any of which may be
cancelled, a call ends exactly when it is cancelled at an await or its request is never in the batch
of a call that is. -/
theorem infer_ends_iff (hinj : Function.Injective fun i => (requests i).requestId) (hnow : 0 < now)
    (hf : FairCancel requests (init maxBatchSize maxWaitMs modelCache world now) sched) (i : ι) :
    (∃ n, ((stateAt (cancelStep requests) (init maxBatchSize maxWaitMs modelCache world now)
        sched n).calls i).pc.ended = true) ↔
      (∃ n, Cancels i (stateAt (cancelStep requests)
        (init maxBatchSize maxWaitMs modelCache world now) sched n) (sched n)) ∨
      ∀ n, ¬ Drops requests i (stateAt (cancelStep requests)
        (init maxBatchSize maxWaitMs modelCache world now) sched n) (sched n) :=
  ends_iff hinj hf (placed_run requests maxBatchSize maxWaitMs modelCache world now [])
    ⟨fun _ => trivial, hnow, fun h => absurd rfl h⟩
    (conserved_init requests maxBatchSize maxWaitMs modelCache world now (requests i).requestId)

/-- The two calls take turns until the first one has both requests in its batch; it is cancelled
while it awaits the endpoint. -/
def cancelledBatch (n : ℕ) : CancelAction Bool ℕ ℕ Unit :=
  if n = 14 then .cancel true else .act (takingTurns n)

theorem cancelledBatch_act {n : ℕ} (h : n ≠ 14) : cancelledBatch n = .act (takingTurns n) :=
  if_neg h

theorem now_cancelledBatch (s : Engine Bool ℕ ℕ Unit) (n : ℕ) :
    (stateAt (cancelStep twoIds) s cancelledBatch (n + 1)).now = (3 * (n / 3) + 1 : ℕ) := by
  induction n with
  | zero =>
    show ((0 : ℕ) : ℚ) + 1 = ((0 + 1 : ℕ) : ℚ)
    norm_num
  | succ n ih =>
    rw [stateAt_succ]
    by_cases hn : (n + 1) % 3 = 0
    · have hdiv : 3 * ((n + 1) / 3) + 1 = n + 1 + 1 := by omega
      rw [cancelledBatch_act (by omega), takingTurns_tick hn, hdiv]
      show ((n + 1 : ℕ) : ℚ) + 1 = ((n + 1 + 1 : ℕ) : ℚ)
      rw [Nat.cast_add_one (n + 1)]
    · have hdiv : (n + 1) / 3 = n / 3 := by omega
      rw [hdiv, ← ih]
      by_cases hcancel : n + 1 = 14
      · rw [hcancel]
        show (cancel _ true).now = _
        unfold cancel
        split_ifs <;> rfl
      · rw [cancelledBatch_act hcancel, takingTurns_run hn]
        exact now_run _ _

theorem fair_cancelledBatch (s : Engine Bool ℕ ℕ Unit) : FairCancel twoIds s cancelledBatch where
  runs b n := by
    obtain ⟨m, hm, hrun⟩ := (fair_takingTurns s).runs b (n + 15)
    exact ⟨m, by omega, by rw [cancelledBatch_act (by omega), hrun]⟩
  now_pos n now h := by
    by_cases hn : n = 14
    · rw [hn] at h
      cases h
    · rw [cancelledBatch_act hn] at h
      exact (fair_takingTurns s).now_pos n now (CancelAction.act.inj h)
  clock t := by
    obtain ⟨n, hn⟩ := exists_nat_gt t
    refine ⟨n + 3, fun m hm => ?_⟩
    obtain ⟨k, rfl⟩ : ∃ k, m = k + 1 := ⟨m - 1, by omega⟩
    rw [now_cancelledBatch]
    have hle : n ≤ 3 * (k / 3) + 1 := by omega
    exact hn.le.trans (by exact_mod_cast hle)

/-- The cancelled call ends, and the other one goes round its loop for ever. -/
theorem cancelledBatch_strands :
    let s₀ : Engine Bool ℕ ℕ Unit := init 32 100 (Dict.empty.set "m" doubling) () 1
    (∃ n, ((stateAt (cancelStep twoIds) s₀ cancelledBatch n).calls true).pc.ended = true) ∧
      ¬ ∃ n, ((stateAt (cancelStep twoIds) s₀ cancelledBatch n).calls false).pc.ended = true := by
  intro s₀
  have hsuspended : ((stateAt (cancelStep twoIds) s₀ cancelledBatch 14).calls true).pc.suspended =
      true := by decide +kernel
  have hbatch : 0 < withId (twoIds false).requestId
      ((stateAt (cancelStep twoIds) s₀ cancelledBatch 14).calls true).pc.batch := by
    decide +kernel
  have hends := infer_ends_iff twoIds_injective one_pos (fair_cancelledBatch s₀)
  have hplaced : Placed twoIds (stateAt (cancelStep twoIds) s₀ cancelledBatch 14) :=
    placed_run twoIds 32 100 _ () 1 _
  refine ⟨(hends true).mpr (Or.inl ⟨14, rfl, hsuspended⟩), fun hended => ?_⟩
  rcases (hends false).mp hended with ⟨n, hn, -⟩ | hnone
  · by_cases h14 : n = 14
    · rw [h14] at hn
      cases hn
    · rw [cancelledBatch_act h14] at hn
      cases hn
  · have hmem := (mem_batch_iff twoIds_injective hplaced false true).mpr hbatch
    exact hnone 14 ⟨true, ⟨rfl, hsuspended⟩, hmem⟩

end Engine

end PyStreamAI
