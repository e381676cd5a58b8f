import PyStreamAI.EngineConservation

/-!
# Cancelled calls

A call that is suspended at an await can be cancelled; it raises `CancelledError` there and runs no
further. Only the call itself takes its result out of `_results`, so a result is orphaned when it is
published for a call that was cancelled, or when a call is cancelled that has not taken it yet, and
in no other way (`noOrphans_iff`).
-/

open Py Machine

namespace PyStreamAI

variable {ι Input Output World : Type}

namespace Pc

/-- Suspended at an await, or not started yet. -/
def suspended : Pc Input Output World → Bool
  | .created | .adding | .polling | .sleeping | .flushing | .batching _ (_ :: _) _ => true
  | _ => false

/-- Returned, raised or cancelled. -/
def ended : Pc Input Output World → Bool
  | .finished _ => true
  | _ => false

/-- The call has added its request to the batch queue. -/
def started : Pc Input Output World → Bool
  | .created | .adding => false
  | _ => true

/-- Started and not ended. -/
def running : Pc Input Output World → Bool
  | .created | .finished _ => false
  | _ => true

theorem running_of_started {pc : Pc Input Output World} (hs : pc.started = true)
    (he : pc.ended = false) : pc.running = true := by
  cases pc with
  | created => cases hs
  | finished outcome => cases he
  | _ => rfl

theorem ended_of_suspended {pc : Pc Input Output World} (h : pc.suspended = true) :
    pc.ended = false := by
  cases pc <;> first | rfl | cases h

theorem ended_of_running {pc : Pc Input Output World} (h : pc.running = true) :
    pc.ended = false := by
  cases pc with
  | finished outcome => cases h
  | _ => rfl

end Pc

namespace Engine

variable [DecidableEq ι] (requests : ι → InferenceRequest Input)

/-- The exception a cancelled call ends with. -/
def cancelledError : Error := ⟨"CancelledError", ""⟩

/-- What can happen next when calls can be cancelled. -/
inductive CancelAction (ι Input Output World : Type)
  | act (a : Action ι Input Output World)
  | cancel (i : ι)

/-- Cancel call `i` at its await. -/
def cancel (s : Engine ι Input Output World) (i : ι) : Engine ι Input Output World :=
  if (s.calls i).pc.suspended then s.goto i (.finished (.error cancelledError)) else s

theorem cancel_of_suspended {s : Engine ι Input Output World} {i : ι}
    (h : (s.calls i).pc.suspended = true) :
    s.cancel i = s.goto i (.finished (.error cancelledError)) := if_pos h

theorem cancel_of_not_suspended {s : Engine ι Input Output World} {i : ι}
    (h : ¬ (s.calls i).pc.suspended = true) : s.cancel i = s := if_neg h

/-- A call that is over runs idly. -/
theorem run_of_ended {s : Engine ι Input Output World} {i : ι}
    (h : (s.calls i).pc.ended = true) : s.advance requests i = s ∧ s.observe i = [] := by
  cases hpc : (s.calls i).pc with
  | finished outcome =>
    unfold advance observe
    rw [hpc]
    exact ⟨rfl, rfl⟩
  | _ => rw [hpc] at h; cases h

/-- The engine after an action or a cancellation. -/
def cancelStep (s : Engine ι Input Output World) :
    CancelAction ι Input Output World → Engine ι Input Output World
  | .act a => s.step requests a
  | .cancel i => s.cancel i

/-- Every key of `_results` belongs to a running call, so with all calls over and nothing queued
there is none. -/
structure NoOrphans (s : Engine ι Input Output World) : Prop where
  owned : ∀ id, s.results.contains id = true →
    ∃ i, (requests i).requestId = id ∧ (s.calls i).pc.running = true
  drained : (∀ i, (s.calls i).pc.ended = true) → s.batchQueue.queue = [] → s.results.keys = []

/-- A publication for calls none of which is over, or the cancellation of a call without a result to
pop. -/
def OrphansNothing (s : Engine ι Input Output World) : CancelAction ι Input Output World → Prop
  | .act (.run i) => ∀ batch results, s.Publishing i batch results → ∀ r ∈ batch, ∀ j,
    (requests j).requestId = r.requestId → (s.calls j).pc.ended = false
  | .cancel i => (s.calls i).pc.suspended = true →
    s.results.contains (requests i).requestId = false
  | _ => True

/-! ## Where the requests come from -/

/-- Queued and flushed requests are those of calls that added them, and partial results cover their
batches. -/
structure Placed (s : Engine ι Input Output World) : Prop where
  queue : ∀ r ∈ s.batchQueue.queue, ∃ k, requests k = r ∧ (s.calls k).pc.started = true
  batch : ∀ i, ∀ r ∈ (s.calls i).pc.batch, ∃ k, requests k = r ∧ (s.calls k).pc.started = true
  covered : ∀ i, (s.calls i).pc.Covered

omit [DecidableEq ι] in
theorem NoOrphans.of_owned {s : Engine ι Input Output World}
    (h : ∀ id, s.results.contains id = true →
      ∃ i, (requests i).requestId = id ∧ (s.calls i).pc.running = true) :
    NoOrphans requests s := by
  refine ⟨h, fun hended _ => List.eq_nil_iff_forall_not_mem.mpr fun id hid => ?_⟩
  obtain ⟨i, -, hrun⟩ := h id (Dict.contains_iff_mem.mpr hid)
  have hover := hended i
  rw [Pc.ended_of_running hrun] at hover
  cases hover

omit [DecidableEq ι] in
/-- What call `i` keeps when it alone goes on, every call keeps. -/
theorem pc_of_others {P : Pc Input Output World → Prop} {s s' : Engine ι Input Output World} {i : ι}
    (hothers : ∀ j, j ≠ i → s'.calls j = s.calls j) (hi : P (s.calls i).pc → P (s'.calls i).pc)
    {j : ι} (hj : P (s.calls j).pc) : P (s'.calls j).pc := by
  by_cases hji : j = i
  · rw [hji] at hj ⊢
    exact hi hj
  · rw [hothers j hji]
    exact hj

/-- A move keeps a started call started. -/
theorem started_of_moves {s s' : Engine ι Input Output World} {i : ι}
    {evs : List (Event ι Input Output World)} (hm : Moves requests s i s' evs) {k : ι}
    (hk : (s.calls k).pc.started = true) : (s'.calls k).pc.started = true := by
  refine pc_of_others (P := fun pc => pc.started = true) (fun _ => calls_of_moves requests hm)
    (fun hi => ?_) hk
  cases hm with
  | start h => rw [h] at hi; cases hi
  | add h => rw [h] at hi; cases hi
  | stay outcome h => exact hi
  | _ => rw [goto_pc_self]; rfl

theorem placed_of_moves {s s' : Engine ι Input Output World} {i : ι}
    {evs : List (Event ι Input Output World)} (hm : Moves requests s i s' evs)
    (h : Placed requests s) : Placed requests s' := by
  have hmono : ∀ {r : InferenceRequest Input},
      (∃ k, requests k = r ∧ (s.calls k).pc.started = true) →
        ∃ k, requests k = r ∧ (s'.calls k).pc.started = true :=
    fun ⟨k, hk, hs⟩ => ⟨k, hk, started_of_moves requests hm hs⟩
  have hbatch : (∀ r ∈ (s'.calls i).pc.batch, r ∈ (s.calls i).pc.batch ∨ r ∈ s.batchQueue.queue) →
      ∀ j, ∀ r ∈ (s'.calls j).pc.batch,
        ∃ k, requests k = r ∧ (s'.calls k).pc.started = true := by
    intro hi j r hr
    by_cases hj : j = i
    · subst hj
      rcases hi r hr with hr | hr
      · exact hmono (h.batch j r hr)
      · exact hmono (h.queue r hr)
    · rw [calls_of_moves requests hm hj] at hr
      exact hmono (h.batch j r hr)
  refine ⟨?_, hbatch ?_, covered_of_moves requests hm h.covered⟩
  · cases hm with
    | add hpc =>
      intro r hr
      rcases List.mem_append.mp hr with hr | hr
      · exact hmono (h.queue r hr)
      · refine ⟨i, (List.mem_singleton.mp hr).symm, ?_⟩
        rw [goto_pc_self]
        rfl
    | flushEmpty => exact fun r hr => by cases hr
    | flush => exact fun r hr => by cases hr
    | _ => exact fun r hr => hmono (h.queue r hr)
  · cases hm with
    | start => rw [setCall_calls_self]; exact fun r hr => by cases hr
    | flush => rw [goto_pc_self]; exact fun r hr => .inr hr
    | missing _ _ _ _ _ hpc => rw [goto_pc_self, hpc]; exact fun r hr => .inl hr
    | found _ _ _ _ _ _ hpc => rw [goto_pc_self, hpc]; exact fun r hr => .inl hr
    | predict _ _ _ _ _ hpc => rw [goto_pc_self, hpc]; exact fun r hr => .inl hr
    | stay => exact fun r hr => .inl hr
    | _ => rw [goto_pc_self]; exact fun r hr => by cases hr

theorem Placed.step {s : Engine ι Input Output World} (h : Placed requests s)
    (a : CancelAction ι Input Output World) : Placed requests (s.cancelStep requests a) := by
  cases a with
  | act a =>
    cases a with
    | run i => exact placed_of_moves requests (advance_moves requests s i) h
    | tick now => exact ⟨h.queue, h.batch, h.covered⟩
    | load modelId endpoint => exact ⟨h.queue, h.batch, h.covered⟩
  | cancel i =>
    show Placed requests (s.cancel i)
    unfold cancel
    split_ifs
    · have hstarted : ∀ {r : InferenceRequest Input},
          (∃ k, requests k = r ∧ (s.calls k).pc.started = true) →
            ∃ k, requests k = r ∧
              ((s.goto i (.finished (.error cancelledError))).calls k).pc.started = true := by
        rintro r ⟨k, hk, hs⟩
        refine ⟨k, hk, pc_of_others (P := fun pc => pc.started = true)
          (fun _ => calls_goto_of_ne s _) (fun _ => ?_) hs⟩
        rw [goto_pc_self]
        rfl
      refine ⟨fun r hr => hstarted (h.queue r hr), fun j r hr => ?_, fun j => ?_⟩
      · by_cases hji : j = i
        · rw [hji, goto_pc_self] at hr
          cases hr
        · rw [calls_goto_of_ne s _ hji] at hr
          exact hstarted (h.batch j r hr)
      · refine pc_of_others (P := Pc.Covered) (fun _ => calls_goto_of_ne s _) (fun _ => ?_)
          (h.covered j)
        rw [goto_pc_self]
        exact Pc.covered_of_idle rfl rfl rfl
    · exact h

/-! ## One step -/

section Steps

variable {requests} {s : Engine ι Input Output World}

/-- A move that leaves the results and ends no call leaves no orphan. -/
theorem NoOrphans.quiet {s' : Engine ι Input Output World} {i : ι}
    {evs : List (Event ι Input Output World)} (h : NoOrphans requests s)
    (hm : Moves requests s i s' evs) (hr : s'.results = s.results)
    (hrun : (s.calls i).pc.running = true → (s'.calls i).pc.running = true) :
    NoOrphans requests s' := by
  refine NoOrphans.of_owned requests fun id hid => ?_
  rw [hr] at hid
  obtain ⟨j, hj, hjrun⟩ := h.owned id hid
  exact ⟨j, hj, pc_of_others (P := fun pc => pc.running = true)
    (fun _ => calls_of_moves requests hm) hrun hjrun⟩

/-- The call that pops its result takes the only key of its own away. -/
theorem NoOrphans.pop {i : ι} (h : NoOrphans requests s) (hpc : (s.calls i).pc = .looping)
    {result : BatchResult Output} (hr : s.results.get? (requests i).requestId = some result) :
    NoOrphans requests ({ s with results := s.results.erase (requests i).requestId }.goto i
      (.finished (deliver (requests i) ((s.now - (s.calls i).startTime) * 1000) result))) := by
  refine NoOrphans.of_owned requests fun id hid => ?_
  have hid' : (s.results.erase (requests i).requestId).contains id = true := hid
  unfold Dict.contains at hid'
  rw [Dict.get?_erase] at hid'
  split_ifs at hid' with hown
  · cases hid'
  · obtain ⟨j, hj, hjrun⟩ := h.owned id hid'
    have hji : j ≠ i := fun e => hown (e ▸ hj.symm)
    refine ⟨j, hj, ?_⟩
    rw [calls_of_moves requests (.pop hpc result hr) hji]
    exact hjrun

/-- Only a publication can orphan a result. -/
theorem NoOrphans.of_moves {s' : Engine ι Input Output World} {i : ι}
    {evs : List (Event ι Input Output World)} (h : NoOrphans requests s)
    (hm : Moves requests s i s' evs) (hp : ∀ batch results, ¬ s.Publishing i batch results) :
    NoOrphans requests s' := by
  cases hm with
  | pop hpc result hr => exact h.pop hpc hr
  | publish batch results hpc => exact absurd hpc (hp batch results)
  | stay outcome hpc => exact h
  | start hpc => exact h.quiet (.start hpc) rfl fun hrun => by rw [hpc] at hrun; cases hrun
  | add hpc => exact h.quiet (.add hpc) rfl fun _ => by rw [goto_pc_self]; rfl
  | poll hpc hr => exact h.quiet (.poll hpc hr) rfl fun _ => by rw [goto_pc_self]; rfl
  | ready hpc hf => exact h.quiet (.ready hpc hf) rfl fun _ => by rw [goto_pc_self]; rfl
  | sleep hpc hf => exact h.quiet (.sleep hpc hf) rfl fun _ => by rw [goto_pc_self]; rfl
  | wake hpc => exact h.quiet (.wake hpc) rfl fun _ => by rw [goto_pc_self]; rfl
  | flushEmpty hpc hq => exact h.quiet (.flushEmpty hpc hq) rfl fun _ => by rw [goto_pc_self]; rfl
  | flush hpc hq => exact h.quiet (.flush hpc hq) rfl fun _ => by rw [goto_pc_self]; rfl
  | missing batch m rs groups results hpc hm =>
    exact h.quiet (.missing batch m rs groups results hpc hm) rfl
      fun _ => by rw [goto_pc_self]; rfl
  | found batch m rs groups results endpoint hpc hm =>
    exact h.quiet (.found batch m rs groups results endpoint hpc hm) rfl
      fun _ => by rw [goto_pc_self]; rfl
  | predict batch endpoint rs groups results hpc =>
    exact h.quiet (.predict batch endpoint rs groups results hpc) rfl
      fun _ => by rw [goto_pc_self]; rfl

omit [DecidableEq ι] in
/-- What a publication adds are the ids of its batch. -/
theorem contains_publish {i : ι} {batch : List (InferenceRequest Input)}
    {results : Dict String (BatchResult Output)} (hc : (s.calls i).pc.Covered)
    (hp : s.Publishing i batch results) (id : String) :
    (s.results.update results).contains id = true ↔
      (∃ r ∈ batch, r.requestId = id) ∨ s.results.contains id = true := by
  have hid : 0 < withId id batch ↔ results.contains id = true := by
    have hid := hc id
    rw [hp] at hid
    simpa [Pc.batch, Pc.partialResults, Pc.pending, ungroup] using hid
  have hmem : (∃ r ∈ batch, r.requestId = id) ↔ results.contains id = true := by
    rw [← hid, withId_pos, List.mem_map]
  rw [hmem]
  unfold Dict.contains
  rw [Dict.get?_update]
  cases results.get? id <;> simp

variable (hinj : Function.Injective fun i => (requests i).requestId)
include hinj

theorem orphansNothing_publish_iff {i : ι} {batch : List (InferenceRequest Input)}
    {results : Dict String (BatchResult Output)} (hplaced : Placed requests s)
    (h : NoOrphans requests s) (hp : s.Publishing i batch results) :
    OrphansNothing requests s (.act (.run i)) ↔
      NoOrphans requests ({ s with results := s.results.update results }.goto i .looping) := by
  have hm : Moves requests s i ({ s with results := s.results.update results }.goto i .looping)
      [.published i batch] := .publish batch results hp
  have hcontains := contains_publish (hplaced.covered i) hp
  have hrunning : ∀ j, (s.calls j).pc.running = true →
      (({ s with results := s.results.update results }.goto i .looping).calls j).pc.running =
        true := by
    intro j hjrun
    refine pc_of_others (P := fun pc => pc.running = true) (fun _ => calls_of_moves requests hm)
      (fun _ => ?_) hjrun
    rw [goto_pc_self]
    rfl
  constructor
  · intro hnothing
    refine NoOrphans.of_owned requests fun id hid => ?_
    rcases (hcontains id).mp hid with ⟨r, hr, rfl⟩ | hid
    · obtain ⟨k, rfl, hstarted⟩ := hplaced.batch i r (by rw [hp]; exact hr)
      have hended := hnothing batch results hp _ hr k rfl
      exact ⟨k, rfl, hrunning k (Pc.running_of_started hstarted hended)⟩
    · obtain ⟨j, hj, hjrun⟩ := h.owned id hid
      exact ⟨j, hj, hrunning j hjrun⟩
  · intro hafter batch' results' hp' r hr j hj
    have heq : (Pc.batching batch [] results : Pc Input Output World) =
        .batching batch' [] results' := hp.symm.trans hp'
    cases heq
    obtain ⟨k, hk, hrun⟩ := hafter.owned r.requestId ((hcontains _).mpr (.inl ⟨r, hr, rfl⟩))
    obtain rfl : j = k := hinj (hj.trans hk.symm)
    by_cases hji : j = i
    · rw [hji, hp]
      rfl
    · rw [calls_of_moves requests hm hji] at hrun
      exact Pc.ended_of_running hrun

theorem orphansNothing_cancel_iff (h : NoOrphans requests s) (i : ι) :
    OrphansNothing requests s (.cancel i) ↔ NoOrphans requests (s.cancel i) := by
  unfold cancel
  by_cases hsus : (s.calls i).pc.suspended = true
  · rw [if_pos hsus]
    constructor
    · intro hnothing
      refine NoOrphans.of_owned requests fun id hid => ?_
      obtain ⟨j, hj, hjrun⟩ := h.owned id hid
      have hji : j ≠ i := by
        rintro rfl
        have hnone := hnothing hsus
        rw [hj] at hnone
        exact Bool.false_ne_true (hnone.symm.trans hid)
      refine ⟨j, hj, ?_⟩
      rw [calls_goto_of_ne s _ hji]
      exact hjrun
    · intro hafter _
      by_contra hne
      have hkey : s.results.contains (requests i).requestId = true := by simpa using hne
      obtain ⟨j, hj, hjrun⟩ := hafter.owned (requests i).requestId hkey
      obtain rfl : j = i := hinj hj
      rw [goto_pc_self] at hjrun
      cases hjrun
  · rw [if_neg hsus]
    exact iff_of_true (fun hsus' => absurd hsus' hsus) h

/-- One step orphans a result exactly when it publishes one for a call that is over, or cancels a
call that has one. -/
theorem orphansNothing_iff (hplaced : Placed requests s) (h : NoOrphans requests s)
    (a : CancelAction ι Input Output World) :
    OrphansNothing requests s a ↔ NoOrphans requests (s.cancelStep requests a) := by
  cases a with
  | cancel i => exact orphansNothing_cancel_iff hinj h i
  | act a =>
    cases a with
    | tick now => exact iff_of_true trivial ⟨h.owned, h.drained⟩
    | load modelId endpoint => exact iff_of_true trivial ⟨h.owned, h.drained⟩
    | run i =>
      by_cases hp : ∃ batch results, s.Publishing i batch results
      · obtain ⟨batch, results, hp⟩ := hp
        have hadv : s.cancelStep requests (.act (.run i)) =
            { s with results := s.results.update results }.goto i .looping := by
          show s.advance requests i = _
          unfold advance; rw [hp]
        rw [hadv]
        exact orphansNothing_publish_iff hinj hplaced h hp
      · refine iff_of_true (fun b r hbr => absurd ⟨b, r, hbr⟩ hp) ?_
        exact h.of_moves (advance_moves requests s i) fun b r hbr => hp ⟨b, r, hbr⟩

end Steps

/-! ## Schedules -/

section Runs

variable (maxBatchSize : ℤ) (maxWaitMs : ℚ) (modelCache : Dict String (Endpoint Input Output World))
  (world : World) (now : ℚ)

theorem placed_run (tr : List (CancelAction ι Input Output World)) :
    Placed requests
      (run (cancelStep requests) (init maxBatchSize maxWaitMs modelCache world now) tr) := by
  refine run_invariant ⟨?_, ?_, ?_⟩ (fun _ h a => h.step requests a) tr
  · exact fun r hr => by cases hr
  · exact fun i r hr => by cases hr
  · exact fun i => Pc.covered_of_idle rfl rfl rfl

omit [DecidableEq ι] in
theorem noOrphans_init :
    NoOrphans requests (init maxBatchSize maxWaitMs modelCache world now) :=
  NoOrphans.of_owned requests fun id hid => by cases hid

variable {requests}

/-- **Orphans.** In a schedule of calls with distinct ids, any of which may be cancelled, every
key of `_results` belongs to a running call throughout, exactly when no batch is published with a
request of a call that is over and no call is cancelled while its result is there. -/
theorem noOrphans_iff (hinj : Function.Injective fun i => (requests i).requestId)
    (tr : List (CancelAction ι Input Output World)) :
    (∀ pre, pre <+: tr → NoOrphans requests
        (run (cancelStep requests) (init maxBatchSize maxWaitMs modelCache world now) pre)) ↔
      Along (cancelStep requests) (OrphansNothing requests)
        (init maxBatchSize maxWaitMs modelCache world now) tr := by
  refine forall_prefix_iff_along
    (noOrphans_init requests maxBatchSize maxWaitMs modelCache world now) (fun pre h a => ?_) tr
  rw [run_snoc]
  exact orphansNothing_iff hinj
    (placed_run requests maxBatchSize maxWaitMs modelCache world now pre) h a

end Runs

/-- Two calls with ids of their own, for a model that is not loaded. -/
def ownIds (b : Bool) : InferenceRequest Unit := ⟨if b then "r2" else "r1", "m", ()⟩

/-- The first call adds its request, finds nothing to flush and is cancelled in its sleep. -/
def cancelledCall : List (CancelAction Bool Unit Unit Unit) :=
  [.act (.run false), .act (.run false), .act (.run false), .act (.run false), .cancel false]

/-- Until its request is published, the cancelled call has left nothing. -/
theorem noOrphans_cancelledCall :
    NoOrphans ownIds (run (cancelStep ownIds) (init 32 100 ∅ () 1) cancelledCall) := by
  refine (noOrphans_iff 32 100 ∅ () 1 (by decide) cancelledCall).mpr ⟨?_, ?_, ?_, ?_, ?_, trivial⟩
    cancelledCall List.prefix_rfl
  · exact fun _ _ hp => by cases hp
  · exact fun _ _ hp => by cases hp
  · exact fun _ _ hp => by cases hp
  · exact fun _ _ hp => by cases hp
  · exact fun _ => rfl

/-- After the cancellation the second call flushes both requests, publishes both results and pops
its own. -/
def outlived : List (CancelAction Bool Unit Unit Unit) :=
  cancelledCall ++ [.act (.run true), .act (.run true), .act (.tick 2), .act (.run true),
    .act (.run true), .act (.run true), .act (.run true), .act (.run true), .act (.run true)]

/-- Both calls are over and nothing is queued, but the result of the cancelled call is still there
and no call is left to pop it. -/
theorem outlived_leaks :
    let s := run (cancelStep ownIds) (init 32 100 ∅ () 1) outlived
    (∀ i, (s.calls i).pc.ended = true) ∧ s.batchQueue.queue.length = 0 ∧
      s.results.keys = ["r1"] ∧ ¬ NoOrphans ownIds s := by
  have hended : ∀ i, ((run (cancelStep ownIds) (init 32 100 ∅ () 1) outlived).calls i).pc.ended =
      true := by decide +kernel
  have hqueue : (run (cancelStep ownIds) (init 32 100 ∅ () 1) outlived).batchQueue.queue.length =
      0 := by decide +kernel
  have hkeys : (run (cancelStep ownIds) (init 32 100 ∅ () 1) outlived).results.keys = ["r1"] := by
    decide +kernel
  refine ⟨hended, hqueue, hkeys, fun h => ?_⟩
  have hnone := h.drained hended (List.length_eq_zero_iff.mp hqueue)
  rw [hkeys] at hnone
  cases hnone

end Engine

end PyStreamAI
