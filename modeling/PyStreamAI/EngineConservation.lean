import Mathlib.Algebra.Order.BigOperators.Group.Finset
import PyStreamAI.InferenceEngine

/-!
# No waiting call is forgotten

For one request id, a waiting call is one that has added its request and not popped a result, and
a request is occupied while it is queued, in a flushed batch or published. Every move changes both
numbers alike (`balance_of_moves`), except that publishing a batch merges its requests under
one key for each id (`balance_of_publish`). So at most the waiting calls are occupied
(`accounted_run`), and the two numbers agree throughout a schedule exactly when every
published batch has distinct ids, none of them published already (`conserved_iff`).
-/

open Py Machine

namespace PyStreamAI

variable {ι Input Output World : Type}

/-! ## Counting by request id -/

/-- The number of requests with the id `id`. -/
def withId (id : String) (rs : List (InferenceRequest Input)) : ℕ :=
  rs.countP fun r => r.requestId = id

@[simp] theorem withId_nil (id : String) : withId id ([] : List (InferenceRequest Input)) = 0 := rfl

@[simp] theorem withId_append (id : String) (rs rs' : List (InferenceRequest Input)) :
    withId id (rs ++ rs') = withId id rs + withId id rs' := List.countP_append

theorem withId_singleton (id : String) (r : InferenceRequest Input) :
    withId id [r] = if r.requestId = id then 1 else 0 := by
  unfold withId
  rw [List.countP_singleton]
  by_cases h : r.requestId = id <;> simp [h]

theorem withId_perm {id : String} {rs rs' : List (InferenceRequest Input)} (h : rs.Perm rs') :
    withId id rs = withId id rs' := h.countP_eq _

theorem withId_pos {id : String} {rs : List (InferenceRequest Input)} :
    0 < withId id rs ↔ id ∈ rs.map InferenceRequest.requestId := by
  simp [withId, List.countP_pos_iff]

theorem withId_eq_count (id : String) (rs : List (InferenceRequest Input)) :
    withId id rs = (rs.map InferenceRequest.requestId).count id := by
  rw [List.count_eq_countP, List.countP_map]
  rfl

/-! ## What a position holds -/

namespace Pc

/-- The call has added its request and not popped a result. -/
def waits : Pc Input Output World → Bool
  | .created | .adding | .finished _ => false
  | _ => true

/-- The flushed batch the call has not published yet. -/
def batch : Pc Input Output World → List (InferenceRequest Input)
  | .batching batch _ _ => batch
  | .predicting batch _ _ _ _ => batch
  | _ => []

/-- The requests of that batch without a result so far. -/
def pending : Pc Input Output World → List (InferenceRequest Input)
  | .batching _ groups _ => ungroup groups
  | .predicting _ _ rs groups _ => rs ++ ungroup groups
  | _ => []

/-- The results of that batch so far. -/
def partialResults : Pc Input Output World → Dict String (BatchResult Output)
  | .batching _ _ results => results
  | .predicting _ _ _ _ results => results
  | _ => ∅

end Pc

/-! ## Partial results -/

theorem contains_missGroup (modelId : String) (n : ℕ) (rs : List (InferenceRequest Input))
    (results : Dict String (BatchResult Output)) (id : String) :
    (missGroup modelId n rs results).contains id = true ↔
      results.contains id = true ∨ 0 < withId id rs := by
  unfold Dict.contains
  rw [get?_missGroup, withId_pos]
  split_ifs with h <;> simp [h]

theorem contains_predictGroup (endpoint : Endpoint Input Output World) (n : ℕ)
    (rs : List (InferenceRequest Input)) (results : Dict String (BatchResult Output))
    (world : World) (id : String) :
    (predictGroup endpoint n rs results world).1.contains id = true ↔
      results.contains id = true ∨ 0 < withId id rs := by
  unfold Dict.contains
  rw [withId_pos]
  rcases get?_predictGroup endpoint n rs results world id with ⟨hget, hid⟩ | ⟨r, w, hid, hmem, hget⟩
  · rw [hget]
    simp [hid]
  · have hr : r ∈ rs := by
      rw [← map_fst_invocations endpoint rs world]
      exact List.mem_map.mpr ⟨(r, w), hmem, rfl⟩
    have hrs : id ∈ rs.map InferenceRequest.requestId := List.mem_map.mpr ⟨r, hr, hid⟩
    rw [hget]
    simp [hrs]

/-- The ids of the batch in flight are those with a result so far and those still pending. -/
def Pc.Covered (pc : Pc Input Output World) : Prop :=
  ∀ id, 0 < withId id pc.batch ↔ pc.partialResults.contains id = true ∨ 0 < withId id pc.pending

theorem Pc.covered_of_idle {pc : Pc Input Output World} (hb : pc.batch = [])
    (hr : pc.partialResults = ∅) (hp : pc.pending = []) : pc.Covered := by
  intro id
  rw [hb, hr, hp]
  simp [Dict.contains]

namespace Engine

variable [Fintype ι] [DecidableEq ι] (requests : ι → InferenceRequest Input)

/-- The sum of `f` over the positions of the calls. -/
def total (s : Engine ι Input Output World) (f : ι → Pc Input Output World → ℕ) : ℕ :=
  ∑ i, f i (s.calls i).pc

/-- Only the call that moves changes the sum. -/
theorem total_of_moves {s s' : Engine ι Input Output World} {i : ι}
    {evs : List (Event ι Input Output World)} (hm : Moves requests s i s' evs)
    (f : ι → Pc Input Output World → ℕ) :
    s'.total f + f i (s.calls i).pc = s.total f + f i (s'.calls i).pc := by
  have hcalls : s'.calls = Function.update s.calls i (s'.calls i) := by
    funext j
    by_cases hj : j = i
    · rw [hj, Function.update_self]
    · rw [Function.update_of_ne hj, calls_of_moves requests hm hj]
  have hsum := sum_update (fun j (c : Call Input Output World) => f j c.pc) s.calls i (s'.calls i)
  rw [← hcalls] at hsum
  exact hsum

/-- The number of waiting calls with the id `id`. -/
def waiting (s : Engine ι Input Output World) (id : String) : ℕ :=
  s.total fun i pc => if (requests i).requestId = id ∧ pc.waits = true then 1 else 0

/-- The number of requests with the id `id` in flushed batches that are not published yet. -/
def inFlight (s : Engine ι Input Output World) (id : String) : ℕ :=
  s.total fun _ pc => withId id pc.batch

/-- The number of requests with the id `id` in the batch queue. -/
def queued (s : Engine ι Input Output World) (id : String) : ℕ := withId id s.batchQueue.queue

/-- 1 if `id` is a key of `_results`, else 0. -/
def published (s : Engine ι Input Output World) (id : String) : ℕ :=
  if s.results.contains id then 1 else 0

/-- The number of requests with the id `id` that are queued, in flight or published. -/
def occupied (s : Engine ι Input Output World) (id : String) : ℕ :=
  s.queued id + s.inFlight id + s.published id

/-- Every waiting call has its request queued or in flight, or a result to pop. -/
def Conserved (s : Engine ι Input Output World) : Prop :=
  ∀ id, s.waiting requests id = s.queued id + s.inFlight id + s.published id

/-! ## Balance of a move -/

/-- 1 if call `i` has the id `id` and waits at `pc`. -/
def waitsAt (id : String) (i : ι) (pc : Pc Input Output World) : ℕ :=
  if (requests i).requestId = id ∧ pc.waits = true then 1 else 0

omit [Fintype ι] [DecidableEq ι] in
theorem waitsAt_of_not (id : String) (i : ι) {pc : Pc Input Output World}
    (h : pc.waits = false) : waitsAt requests id i pc = 0 :=
  if_neg fun hw => by rw [h] at hw; cases hw.2

omit [Fintype ι] [DecidableEq ι] in
theorem waitsAt_of (id : String) (i : ι) {pc : Pc Input Output World} (h : pc.waits = true) :
    waitsAt requests id i pc = if (requests i).requestId = id then 1 else 0 := by
  unfold waitsAt
  simp [h]

theorem waiting_of_moves {s s' : Engine ι Input Output World} {i : ι}
    {evs : List (Event ι Input Output World)} (hm : Moves requests s i s' evs) (id : String) :
    s'.waiting requests id + waitsAt requests id i (s.calls i).pc =
      s.waiting requests id + waitsAt requests id i (s'.calls i).pc :=
  total_of_moves requests hm (waitsAt requests id)

theorem inFlight_of_moves {s s' : Engine ι Input Output World} {i : ι}
    {evs : List (Event ι Input Output World)} (hm : Moves requests s i s' evs) (id : String) :
    s'.inFlight id + withId id (s.calls i).pc.batch =
      s.inFlight id + withId id (s'.calls i).pc.batch :=
  total_of_moves requests hm fun _ pc => withId id pc.batch

/-- Call `i` is about to publish the results of `batch`. -/
def Publishing (s : Engine ι Input Output World) (i : ι) (batch : List (InferenceRequest Input))
    (results : Dict String (BatchResult Output)) : Prop :=
  (s.calls i).pc = .batching batch [] results

omit [Fintype ι] [DecidableEq ι] in
theorem published_erase {s : Engine ι Input Output World} {id' : String}
    {result : BatchResult Output} (h : s.results.get? id' = some result) (id : String) :
    ({ s with results := s.results.erase id' } : Engine ι Input Output World).published id +
      (if id' = id then 1 else 0) = s.published id := by
  unfold published Dict.contains
  rw [Dict.get?_erase]
  by_cases hid : id' = id
  · subst hid
    simp [h]
  · simp [hid, Ne.symm hid]

omit [Fintype ι] in
theorem queued_add (s : Engine ι Input Output World) (i : ι) (id : String) :
    ({ s with batchQueue := s.batchQueue.add s.now (requests i) }.goto i .looping :
      Engine ι Input Output World).queued id =
        s.queued id + if (requests i).requestId = id then 1 else 0 := by
  show withId id (s.batchQueue.queue ++ [requests i]) = _
  rw [withId_append, withId_singleton]
  rfl

/-- Every move but a publication changes the waiting calls and the occupied requests alike. -/
theorem balance_of_moves {s s' : Engine ι Input Output World} {i : ι}
    {evs : List (Event ι Input Output World)} (hm : Moves requests s i s' evs)
    (hp : ∀ batch results, ¬ s.Publishing i batch results) (id : String) :
    s'.waiting requests id + s.occupied id = s.waiting requests id + s'.occupied id := by
  have hw := waiting_of_moves requests hm id
  have hb := inFlight_of_moves requests hm id
  unfold occupied
  cases hm with
  | start h =>
    rw [setCall_calls_self, h] at hw hb
    rw [waitsAt_of_not requests id i rfl, waitsAt_of_not requests id i rfl] at hw
    simp only [Pc.batch] at hb
    show _ + (s.queued id + _ + s.published id) = _ + (s.queued id + _ + s.published id)
    omega
  | add h =>
    rw [goto_pc_self, h] at hw hb
    rw [waitsAt_of_not requests id i rfl, waitsAt_of requests id i rfl] at hw
    simp only [Pc.batch] at hb
    rw [queued_add]
    show _ + (_ + _ + s.published id) = _ + (_ + _ + s.published id)
    omega
  | pop h result hr =>
    have hpub : ({ s with results := s.results.erase (requests i).requestId }.goto i
        (.finished (deliver (requests i) ((s.now - (s.calls i).startTime) * 1000) result)) :
        Engine ι Input Output World).published id +
          (if (requests i).requestId = id then 1 else 0) = s.published id :=
      published_erase hr id
    rw [goto_pc_self, h] at hw hb
    rw [waitsAt_of requests id i rfl, waitsAt_of_not requests id i rfl] at hw
    simp only [Pc.batch] at hb
    show _ + (s.queued id + _ + _) = _ + (s.queued id + _ + _)
    omega
  | flushEmpty h hq =>
    rw [goto_pc_self, h] at hw hb
    have hq₀ : s.queued id = 0 := by
      unfold queued
      rw [hq]
      rfl
    rw [waitsAt_of requests id i rfl, waitsAt_of requests id i rfl] at hw
    simp only [Pc.batch] at hb
    show _ + (_ + _ + s.published id) = _ + (0 + _ + s.published id)
    omega
  | flush h hq =>
    rw [goto_pc_self, h] at hw hb
    have hq₀ : withId id s.batchQueue.queue = s.queued id := rfl
    rw [waitsAt_of requests id i rfl, waitsAt_of requests id i rfl] at hw
    simp only [Pc.batch, hq₀, withId_nil] at hb
    show _ + (_ + _ + s.published id) = _ + (0 + _ + s.published id)
    omega
  | publish batch results h => exact absurd h (hp batch results)
  | stay outcome h => rfl
  | poll h _ | ready h _ | sleep h _ | wake h | missing _ _ _ _ _ h _ | found _ _ _ _ _ _ h _
  | predict _ _ _ _ _ h =>
    -- the call goes on waiting, with the batch it has
    rw [goto_pc_self, h] at hw hb
    rw [waitsAt_of requests id i rfl, waitsAt_of requests id i rfl] at hw
    simp only [Pc.batch] at hb
    show _ + (s.queued id + _ + s.published id) = _ + (s.queued id + _ + s.published id)
    omega

/-! ## Published batches -/

omit [Fintype ι] in
theorem covered_of_moves {s s' : Engine ι Input Output World} {i : ι}
    {evs : List (Event ι Input Output World)} (hm : Moves requests s i s' evs)
    (hs : ∀ j, (s.calls j).pc.Covered) : ∀ j, (s'.calls j).pc.Covered := by
  refine forall_pc_of_moves requests (Q := fun _ pc => pc.Covered) hm ?_ fun j _ => hs j
  have hi := hs i
  cases hm with
  | start h => rw [setCall_calls_self]; exact Pc.covered_of_idle rfl rfl rfl
  | stay => exact hi
  | flush h hq =>
    rw [goto_pc_self]
    intro id
    show 0 < withId id s.batchQueue.queue ↔
      (∅ : Dict String (BatchResult Output)).contains id = true ∨
        0 < withId id (ungroup (byModel s.batchQueue.queue).entries)
    rw [withId_perm (ungroup_byModel _)]
    simp [Dict.contains]
  | missing batch modelId rs groups results h _ =>
    rw [goto_pc_self]
    rw [h] at hi
    intro id
    have hid := hi id
    simp only [Pc.batch, Pc.partialResults, Pc.pending, ungroup_cons, withId_append] at hid ⊢
    rw [contains_missGroup, hid, Nat.add_pos_iff_pos_or_pos, or_assoc]
  | found batch modelId rs groups results endpoint h _ =>
    rw [goto_pc_self]
    rw [h] at hi
    intro id
    have hid := hi id
    simp only [Pc.batch, Pc.partialResults, Pc.pending, ungroup_cons] at hid ⊢
    exact hid
  | predict batch endpoint rs groups results h =>
    rw [goto_pc_self]
    rw [h] at hi
    intro id
    have hid := hi id
    simp only [Pc.batch, Pc.partialResults, Pc.pending, withId_append] at hid ⊢
    rw [contains_predictGroup, hid, Nat.add_pos_iff_pos_or_pos, or_assoc]
  | _ => rw [goto_pc_self]; exact Pc.covered_of_idle rfl rfl rfl

/-- What is published under `id` once the results of `batch` are. -/
def publishedAfter (s : Engine ι Input Output World) (batch : List (InferenceRequest Input))
    (id : String) : ℕ :=
  if 0 < withId id batch ∨ s.results.contains id = true then 1 else 0

omit [Fintype ι] [DecidableEq ι] in
theorem published_update {s : Engine ι Input Output World} {i : ι}
    {batch : List (InferenceRequest Input)} {results : Dict String (BatchResult Output)}
    (hc : (s.calls i).pc.Covered) (h : s.Publishing i batch results) (id : String) :
    ({ s with results := s.results.update results } : Engine ι Input Output World).published id =
      s.publishedAfter batch id := by
  have hid : 0 < withId id batch ↔ results.contains id = true := by
    have hid := hc id
    rw [h] at hid
    simpa [Pc.batch, Pc.partialResults, Pc.pending, ungroup] using hid
  have hcon : (s.results.update results).contains id = true ↔
      0 < withId id batch ∨ s.results.contains id = true := by
    rw [hid]
    unfold Dict.contains
    rw [Dict.get?_update]
    cases results.get? id <;> simp
  exact if_congr hcon rfl rfl

/-- Publishing a batch leaves the waiting calls and merges the requests of each id. -/
theorem balance_of_publish {s : Engine ι Input Output World} {i : ι}
    {batch : List (InferenceRequest Input)} {results : Dict String (BatchResult Output)}
    (hc : (s.calls i).pc.Covered) (h : s.Publishing i batch results) (id : String) :
    (s.advance requests i).waiting requests id + s.occupied id + s.publishedAfter batch id =
      s.waiting requests id + (s.advance requests i).occupied id +
        (withId id batch + s.published id) := by
  have hadv : s.advance requests i =
      { s with results := s.results.update results }.goto i .looping := by
    unfold advance; rw [h]
  have hm : Moves requests s i ({ s with results := s.results.update results }.goto i .looping)
      [.published i batch] := .publish batch results h
  have hw := waiting_of_moves requests hm id
  have hb := inFlight_of_moves requests hm id
  have hpub : ({ s with results := s.results.update results }.goto i .looping :
      Engine ι Input Output World).published id = s.publishedAfter batch id :=
    published_update hc h id
  rw [goto_pc_self, h] at hw hb
  rw [waitsAt_of requests id i rfl, waitsAt_of requests id i rfl] at hw
  simp only [Pc.batch, withId_nil] at hb
  rw [hadv]
  unfold occupied
  rw [hpub]
  show _ + (_ + _ + _) + _ = _ + (s.queued id + _ + _) + _
  omega

omit [Fintype ι] [DecidableEq ι] in
theorem publishedAfter_le (s : Engine ι Input Output World)
    (batch : List (InferenceRequest Input)) (id : String) :
    s.publishedAfter batch id ≤ withId id batch + s.published id := by
  unfold publishedAfter published
  by_cases hb : 0 < withId id batch
  · rw [if_pos (Or.inl hb)]
    omega
  · by_cases hr : s.results.contains id = true
    · rw [if_pos (Or.inr hr), if_pos hr]
      omega
    · rw [if_neg (not_or.mpr ⟨hb, hr⟩)]
      omega

/-! ## Schedules -/

/-- What holds after every schedule: partial results cover their batches, and there are at least
as many waiting calls as occupied requests. -/
structure Accounted (s : Engine ι Input Output World) : Prop where
  covered : ∀ i, (s.calls i).pc.Covered
  occupied_le : ∀ id, s.occupied id ≤ s.waiting requests id

theorem Accounted.advance {s : Engine ι Input Output World} (h : Accounted requests s) (i : ι) :
    Accounted requests (s.advance requests i) := by
  have hm := advance_moves requests s i
  refine ⟨covered_of_moves requests hm h.covered, fun id => ?_⟩
  have hle := h.occupied_le id
  by_cases hp : ∃ batch results, s.Publishing i batch results
  · obtain ⟨batch, results, hp⟩ := hp
    have hb := balance_of_publish requests (h.covered i) hp id
    have hafter := s.publishedAfter_le batch id
    omega
  · have hb := balance_of_moves requests hm (fun b r hbr => hp ⟨b, r, hbr⟩) id
    omega

theorem Accounted.step {s : Engine ι Input Output World} (h : Accounted requests s)
    (a : Action ι Input Output World) : Accounted requests (s.step requests a) := by
  cases a with
  | run i => exact h.advance requests i
  | tick now => exact ⟨h.covered, h.occupied_le⟩
  | load modelId endpoint => exact ⟨h.covered, h.occupied_le⟩

section Runs

variable (maxBatchSize : ℤ) (maxWaitMs : ℚ) (modelCache : Dict String (Endpoint Input Output World))
  (world : World) (now : ℚ)

omit [DecidableEq ι] in
theorem conserved_init :
    Conserved requests (init maxBatchSize maxWaitMs modelCache world now) := by
  intro id
  simp [init, waiting, queued, inFlight, published, total, Pc.waits, Pc.batch, Dict.contains]

omit [DecidableEq ι] in
theorem accounted_init :
    Accounted requests (init maxBatchSize maxWaitMs modelCache world now) where
  covered _ := Pc.covered_of_idle rfl rfl rfl
  occupied_le id := (conserved_init requests maxBatchSize maxWaitMs modelCache world now id).ge

theorem accounted_run (tr : List (Action ι Input Output World)) :
    Accounted requests
      (run (step requests) (init maxBatchSize maxWaitMs modelCache world now) tr) :=
  run_invariant (accounted_init requests maxBatchSize maxWaitMs modelCache world now)
    (fun _ h a => h.step requests a) tr

end Runs

/-- A publication is clean: the batch has distinct ids, and none of them is published already. -/
def CleanPublish (s : Engine ι Input Output World) (a : Action ι Input Output World) : Prop :=
  ∀ i batch results, a = .run i → s.Publishing i batch results →
    (batch.map InferenceRequest.requestId).Nodup ∧
      ∀ r ∈ batch, s.results.contains r.requestId = false

omit [Fintype ι] [DecidableEq ι] in
/-- Clean batches are those whose requests all get a key of their own. -/
theorem clean_iff_publishedAfter {s : Engine ι Input Output World}
    {batch : List (InferenceRequest Input)} :
    ((batch.map InferenceRequest.requestId).Nodup ∧
        ∀ r ∈ batch, s.results.contains r.requestId = false) ↔
      ∀ id, s.publishedAfter batch id = withId id batch + s.published id := by
  constructor
  · rintro ⟨hnodup, hnew⟩ id
    have hle : withId id batch ≤ 1 := by
      rw [withId_eq_count]
      exact List.nodup_iff_count_le_one.mp hnodup id
    unfold publishedAfter published
    by_cases hid : 0 < withId id batch
    · obtain ⟨r, hr, rfl⟩ := List.mem_map.mp (withId_pos.mp hid)
      rw [if_pos (Or.inl hid), hnew r hr]
      simp only [Bool.false_eq_true, if_false]
      omega
    · have hzero : withId id batch = 0 := by omega
      simp [hzero]
  · intro h
    refine ⟨List.nodup_iff_count_le_one.mpr fun id => ?_, fun r hr => ?_⟩
    · have hid := h id
      rw [← withId_eq_count]
      unfold publishedAfter at hid
      split_ifs at hid <;> omega
    · have hid := h r.requestId
      have hpos : 0 < withId r.requestId batch :=
        withId_pos.mpr (List.mem_map.mpr ⟨r, hr, rfl⟩)
      rw [publishedAfter, if_pos (Or.inl hpos)] at hid
      by_contra hne
      rw [published, if_pos (by simpa using hne)] at hid
      omega

/-- From a conserved engine exactly the clean actions lead to a conserved one. -/
theorem cleanPublish_iff {s : Engine ι Input Output World} (ha : Accounted requests s)
    (hs : Conserved requests s) (a : Action ι Input Output World) :
    CleanPublish s a ↔ Conserved requests (s.step requests a) := by
  cases a with
  | tick now => exact ⟨fun _ => hs, fun _ i _ _ h => by cases h⟩
  | load modelId endpoint => exact ⟨fun _ => hs, fun _ i _ _ h => by cases h⟩
  | run i =>
    show _ ↔ ∀ id, (s.advance requests i).waiting requests id = (s.advance requests i).occupied id
    have hso : ∀ id, s.waiting requests id = s.occupied id := hs
    by_cases hp : ∃ batch results, s.Publishing i batch results
    · obtain ⟨batch, results, hp⟩ := hp
      have hclean : CleanPublish s (.run i) ↔
          ∀ id, s.publishedAfter batch id = withId id batch + s.published id := by
        rw [← clean_iff_publishedAfter]
        constructor
        · exact fun h => h i batch results rfl hp
        · intro h i' batch' results' hi' hp'
          obtain rfl : i = i' := by cases hi'; rfl
          have he : (Pc.batching batch [] results : Pc Input Output World) =
              .batching batch' [] results' := hp.symm.trans hp'
          obtain rfl : batch = batch' := by cases he; rfl
          exact h
      rw [hclean]
      refine forall_congr' fun id => ?_
      have hb := balance_of_publish requests (ha.covered i) hp id
      have hid := hso id
      omega
    · have hclean : CleanPublish s (.run i) := by
        intro i' batch results hi' hp'
        obtain rfl : i = i' := by cases hi'; rfl
        exact absurd ⟨batch, results, hp'⟩ hp
      refine iff_of_true hclean fun id => ?_
      have hb := balance_of_moves requests (advance_moves requests s i)
        (fun b r hbr => hp ⟨b, r, hbr⟩) id
      have hid := hso id
      omega

/-- **Conservation.** Throughout a schedule of calls with arbitrary ids the waiting calls and the
occupied requests of each id are equally many, exactly when every batch is published clean. -/
theorem conserved_iff (maxBatchSize : ℤ) (maxWaitMs : ℚ)
    (modelCache : Dict String (Endpoint Input Output World)) (world : World) (now : ℚ)
    (tr : List (Action ι Input Output World)) :
    (∀ pre, pre <+: tr → Conserved requests
        (run (step requests) (init maxBatchSize maxWaitMs modelCache world now) pre)) ↔
      Along (step requests) CleanPublish (init maxBatchSize maxWaitMs modelCache world now) tr := by
  refine forall_prefix_iff_along
    (conserved_init requests maxBatchSize maxWaitMs modelCache world now) (fun pre h a => ?_) tr
  rw [run_snoc]
  exact cleanPublish_iff requests
    (accounted_run requests maxBatchSize maxWaitMs modelCache world now pre) h a

/-- Two calls under the id `"r"`, for a model that is not loaded. -/
def sameId (_ : Bool) : InferenceRequest Unit := ⟨"r", "m", ()⟩

/-- Both calls add their request, and after the wait the first one runs the batch of both. -/
def mergedBatch : List (Action Bool Unit Unit Unit) :=
  [.run false, .run false, .run true, .run true, .tick 2, .run false, .run false, .run false,
    .run false, .run false]

/-- Two calls wait for one result. Once the first call has popped it, the second waits with
nothing queued, in flight or published. -/
theorem mergedBatch_strands :
    let s := run (step sameId) (init 32 100 ∅ () 1) mergedBatch
    let t := run (step sameId) s [.run false]
    s.waiting sameId "r" = 2 ∧ s.queued "r" + s.inFlight "r" + s.published "r" = 1 ∧
      t.waiting sameId "r" = 1 ∧ t.queued "r" + t.inFlight "r" + t.published "r" = 0 ∧
      ¬ Conserved sameId s := by
  have hw : (run (step sameId) (init 32 100 ∅ () 1) mergedBatch).waiting sameId "r" = 2 := by
    decide +kernel
  have ho : (run (step sameId) (init 32 100 ∅ () 1) mergedBatch).queued "r" +
      (run (step sameId) (init 32 100 ∅ () 1) mergedBatch).inFlight "r" +
      (run (step sameId) (init 32 100 ∅ () 1) mergedBatch).published "r" = 1 := by decide +kernel
  refine ⟨hw, ho, by decide +kernel, by decide +kernel, fun h => ?_⟩
  have hr := h "r"
  rw [hw, ho] at hr
  cases hr

/-! ## Distinct ids -/

variable {requests}

omit [DecidableEq ι] in
/-- With distinct ids at most one call waits under an id. -/
theorem waiting_le_one (hinj : Function.Injective fun i => (requests i).requestId)
    (s : Engine ι Input Output World) (id : String) : s.waiting requests id ≤ 1 := by
  unfold waiting total
  rw [Finset.sum_boole, Nat.cast_id]
  refine Finset.card_le_one.mpr fun i hi j hj => hinj ?_
  rw [Finset.mem_filter] at hi hj
  exact hi.2.1.trans hj.2.1.symm

omit [DecidableEq ι] in
theorem withId_le_inFlight (s : Engine ι Input Output World) (i : ι) (id : String) :
    withId id (s.calls i).pc.batch ≤ s.inFlight id :=
  Finset.single_le_sum (f := fun i => withId id (s.calls i).pc.batch) (fun _ _ => Nat.zero_le _)
    (Finset.mem_univ i)

omit [DecidableEq ι] in
/-- With distinct ids every publication is clean. -/
theorem cleanPublish_of_injective (hinj : Function.Injective fun i => (requests i).requestId)
    {s : Engine ι Input Output World} (ha : Accounted requests s)
    (a : Action ι Input Output World) : CleanPublish s a := by
  intro i batch results _ hp
  refine clean_iff_publishedAfter.mpr fun id => ?_
  have hflight := s.withId_le_inFlight i id
  rw [hp] at hflight
  have hle := (ha.occupied_le id).trans (waiting_le_one hinj s id)
  unfold occupied at hle
  have hsum : withId id batch + s.published id ≤ 1 := by
    simp only [Pc.batch] at hflight
    omega
  unfold publishedAfter published at *
  by_cases hb : 0 < withId id batch
  · rw [if_pos (Or.inl hb)]
    omega
  · by_cases hr : s.results.contains id = true
    · rw [if_pos (Or.inr hr), if_pos hr]
      omega
    · rw [if_neg (not_or.mpr ⟨hb, hr⟩), if_neg hr]
      omega

/-- With distinct ids every schedule conserves. -/
theorem conserved_of_injective (hinj : Function.Injective fun i => (requests i).requestId)
    (maxBatchSize : ℤ) (maxWaitMs : ℚ) (modelCache : Dict String (Endpoint Input Output World))
    (world : World) (now : ℚ) (tr : List (Action ι Input Output World)) :
    Conserved requests
      (run (step requests) (init maxBatchSize maxWaitMs modelCache world now) tr) := by
  have hboth : Accounted requests
        (run (step requests) (init maxBatchSize maxWaitMs modelCache world now) tr) ∧
      Conserved requests
        (run (step requests) (init maxBatchSize maxWaitMs modelCache world now) tr) := by
    refine run_invariant (I := fun s => Accounted requests s ∧ Conserved requests s)
      ⟨accounted_init requests maxBatchSize maxWaitMs modelCache world now,
        conserved_init requests maxBatchSize maxWaitMs modelCache world now⟩ ?_ tr
    rintro s ⟨ha, hs⟩ a
    exact ⟨ha.step requests a,
      (cleanPublish_iff requests ha hs a).mp (cleanPublish_of_injective hinj ha a)⟩
  exact hboth.2

end Engine

end PyStreamAI
