import PyStreamAI.EngineConservation

/-!
# Every call gets its own result

A result is `Computed` for a request when it was made in a flushed batch with that request, from
what the cache held for the request's model. Published and partial results are computed for
requests with their key (`Sourced`), whatever the ids. Each added request is handed to one batch
(`Counted`), and each handed request is predicted at most once. With distinct ids a finished call
therefore delivers what was computed for itself (`infer_delivers`).
-/

open Py Machine

namespace PyStreamAI

variable {ι Input Output World : Type}

/-! ## Events -/

/-- The requests handed to `_run_batch_inference`. -/
def handed (evs : List (Event ι Input Output World)) : List (InferenceRequest Input) :=
  evs.flatMap fun
    | .flushed _ batch => batch
    | _ => []

/-- The requests `predict` was invoked for. -/
def invoked (evs : List (Event ι Input Output World)) : List (InferenceRequest Input) :=
  evs.flatMap fun
    | .predicted _ _ r _ _ => [r]
    | _ => []

@[simp] theorem handed_append (evs evs' : List (Event ι Input Output World)) :
    handed (evs ++ evs') = handed evs ++ handed evs' := List.flatMap_append

@[simp] theorem invoked_append (evs evs' : List (Event ι Input Output World)) :
    invoked (evs ++ evs') = invoked evs ++ invoked evs' := List.flatMap_append

/-- `result` was computed for `r`: a call flushed a batch with `r`, and looked up the model of `r`
for it. Either there was none, or the endpoint found was invoked on the input of `r`. -/
def Computed (evs : List (Event ι Input Output World)) (r : InferenceRequest Input)
    (result : BatchResult Output) : Prop :=
  ∃ j batch, .flushed j batch ∈ evs ∧ r ∈ batch ∧
    ((.looked j batch r.modelId none ∈ evs ∧ result = missingResult r.modelId batch.length) ∨
      ∃ endpoint world, .looked j batch r.modelId (some endpoint) ∈ evs ∧
        .predicted j batch r endpoint world ∈ evs ∧
        result = predictedResult (endpoint.predict world r.inputData).1 batch.length)

theorem Computed.mono {evs evs' : List (Event ι Input Output World)} (hsub : evs ⊆ evs')
    {r : InferenceRequest Input} {result : BatchResult Output} (h : Computed evs r result) :
    Computed evs' r result := by
  obtain ⟨j, batch, hf, hr, ⟨hl, hres⟩ | ⟨endpoint, world, hl, hp, hres⟩⟩ := h
  · exact ⟨j, batch, hsub hf, hr, Or.inl ⟨hsub hl, hres⟩⟩
  · exact ⟨j, batch, hsub hf, hr, Or.inr ⟨endpoint, world, hsub hl, hsub hp, hres⟩⟩

/-- What a call returned. -/
def Pc.response : Pc Input Output World → Option (InferenceResponse Output)
  | .finished (.ok response) => some response
  | _ => none

namespace Engine

section Sources

variable (requests : ι → InferenceRequest Input)

/-! ## Where results come from -/

/-- Each result is computed for the request of a call with its key as id. -/
def ResultsFrom (evs : List (Event ι Input Output World))
    (results : Dict String (BatchResult Output)) : Prop :=
  ∀ id result, results.get? id = some result →
    ∃ k, (requests k).requestId = id ∧ Computed evs (requests k) result

/-- The groups consist of requests of the batch, each under its model. -/
def GroupsOf (batch : List (InferenceRequest Input))
    (groups : List (String × List (InferenceRequest Input))) : Prop :=
  ∀ m rs, (m, rs) ∈ groups → ∀ r ∈ rs, r ∈ batch ∧ r.modelId = m

/-- What is known of call `i` at a position. -/
def PcSourced (evs : List (Event ι Input Output World)) (i : ι) : Pc Input Output World → Prop
  | .batching batch groups results =>
    .flushed i batch ∈ evs ∧ GroupsOf batch groups ∧ ResultsFrom requests evs results
  | .predicting batch endpoint rs groups results =>
    .flushed i batch ∈ evs ∧
      (∃ m, .looked i batch m (some endpoint) ∈ evs ∧ ∀ r ∈ rs, r ∈ batch ∧ r.modelId = m) ∧
      GroupsOf batch groups ∧ ResultsFrom requests evs results
  | .finished outcome => ∃ latencyMs result k, (requests k).requestId = (requests i).requestId ∧
    Computed evs (requests k) result ∧ outcome = deliver (requests i) latencyMs result
  | _ => True

/-- Queued and flushed requests are those of the calls, and results come from them. -/
structure Sourced (evs : List (Event ι Input Output World)) (s : Engine ι Input Output World) :
    Prop where
  queue : ∀ r ∈ s.batchQueue.queue, ∃ k, requests k = r
  flushed : ∀ j batch, .flushed j batch ∈ evs → ∀ r ∈ batch, ∃ k, requests k = r
  results : ResultsFrom requests evs s.results
  pcs : ∀ i, PcSourced requests evs i (s.calls i).pc

variable {requests} {evs evs' : List (Event ι Input Output World)}

theorem ResultsFrom.mono (hsub : evs ⊆ evs') {results : Dict String (BatchResult Output)}
    (h : ResultsFrom requests evs results) : ResultsFrom requests evs' results := by
  intro id result hget
  obtain ⟨k, hk, hc⟩ := h id result hget
  exact ⟨k, hk, hc.mono hsub⟩

theorem PcSourced.mono (hsub : evs ⊆ evs') {i : ι} {pc : Pc Input Output World}
    (h : PcSourced requests evs i pc) : PcSourced requests evs' i pc := by
  cases pc with
  | batching batch groups results => exact ⟨hsub h.1, h.2.1, h.2.2.mono hsub⟩
  | predicting batch endpoint rs groups results =>
    obtain ⟨hf, ⟨m, hm, hrs⟩, hg, hres⟩ := h
    exact ⟨hsub hf, ⟨m, hsub hm, hrs⟩, hg, hres.mono hsub⟩
  | finished outcome =>
    obtain ⟨latencyMs, result, k, hk, hc, ho⟩ := h
    exact ⟨latencyMs, result, k, hk, hc.mono hsub, ho⟩
  | _ => trivial

theorem ResultsFrom.update {results results' : Dict String (BatchResult Output)}
    (h : ResultsFrom requests evs results) (h' : ResultsFrom requests evs results') :
    ResultsFrom requests evs (results.update results') := by
  intro id result hget
  rw [Dict.get?_update] at hget
  cases hr : results'.get? id with
  | none => rw [hr] at hget; exact h id result hget
  | some result' =>
    rw [hr] at hget
    obtain rfl := Option.some.inj hget
    exact h' id result' hr

theorem ResultsFrom.erase {results : Dict String (BatchResult Output)}
    (h : ResultsFrom requests evs results) (id : String) :
    ResultsFrom requests evs (results.erase id) := by
  intro id' result hget
  rw [Dict.get?_erase] at hget
  split_ifs at hget
  exact h id' result hget

/-- A group without a model adds results for its requests. -/
theorem ResultsFrom.missGroup {results : Dict String (BatchResult Output)}
    (h : ResultsFrom requests evs results) {j : ι} {batch rs : List (InferenceRequest Input)}
    {m : String} (hf : .flushed j batch ∈ evs) (hl : .looked j batch m none ∈ evs)
    (hrs : ∀ r ∈ rs, r ∈ batch ∧ r.modelId = m) (hcalls : ∀ r ∈ batch, ∃ k, requests k = r) :
    ResultsFrom requests evs (missGroup m batch.length rs results) := by
  intro id result hget
  rw [get?_missGroup] at hget
  split_ifs at hget with hid
  · obtain ⟨r, hr, rfl⟩ := List.mem_map.mp hid
    obtain ⟨hb, rfl⟩ := hrs r hr
    obtain ⟨k, rfl⟩ := hcalls r hb
    exact ⟨k, rfl, j, batch, hf, hb, Or.inl ⟨hl, (Option.some.inj hget).symm⟩⟩
  · exact h id result hget

/-- A predicted group adds results for its requests. -/
theorem ResultsFrom.predictGroup {results : Dict String (BatchResult Output)}
    (h : ResultsFrom requests evs results) {j : ι} {batch rs : List (InferenceRequest Input)}
    {m : String} {endpoint : Endpoint Input Output World} {world : World}
    (hf : .flushed j batch ∈ evs) (hl : .looked j batch m (some endpoint) ∈ evs)
    (hp : ∀ p ∈ invocations endpoint rs world, .predicted j batch p.1 endpoint p.2 ∈ evs)
    (hrs : ∀ r ∈ rs, r ∈ batch ∧ r.modelId = m) (hcalls : ∀ r ∈ batch, ∃ k, requests k = r) :
    ResultsFrom requests evs (predictGroup endpoint batch.length rs results world).1 := by
  intro id result hget
  rcases get?_predictGroup endpoint batch.length rs results world id with
    ⟨hsame, _⟩ | ⟨r, w, rfl, hmem, hnew⟩
  · rw [hsame] at hget
    exact h id result hget
  · have hr : r ∈ rs := by
      rw [← map_fst_invocations endpoint rs world]
      exact List.mem_map.mpr ⟨(r, w), hmem, rfl⟩
    obtain ⟨hb, rfl⟩ := hrs r hr
    obtain ⟨k, rfl⟩ := hcalls r hb
    rw [hnew] at hget
    exact ⟨k, rfl, j, batch, hf, hb,
      Or.inr ⟨endpoint, w, hl, hp _ hmem, (Option.some.inj hget).symm⟩⟩

variable [DecidableEq ι]

/-- Only a flush adds a flushed batch, and what it flushes is the queue. -/
theorem flushed_of_moves {s s' : Engine ι Input Output World} {i j : ι}
    {new : List (Event ι Input Output World)} (hm : Moves requests s i s' new)
    {batch : List (InferenceRequest Input)} (h : .flushed j batch ∈ new) :
    batch = s.batchQueue.queue := by
  cases hm with
  | flush h' hq =>
    cases List.mem_singleton.mp h
    rfl
  | publish batch' results h' => cases List.mem_singleton.mp h
  | missing batch' modelId rs groups results h' hg => cases List.mem_singleton.mp h
  | found batch' modelId rs groups results endpoint h' hg => cases List.mem_singleton.mp h
  | predict batch' endpoint rs groups results h' =>
    obtain ⟨p, _, hp⟩ := List.mem_map.mp h
    cases hp
  | _ => cases h

theorem sourced_of_moves {s s' : Engine ι Input Output World} {i : ι}
    {new : List (Event ι Input Output World)} (hm : Moves requests s i s' new)
    (hs : Sourced requests evs s) : Sourced requests (evs ++ new) s' := by
  have hsub : evs ⊆ evs ++ new := List.subset_append_left evs new
  have hres : ResultsFrom requests (evs ++ new) s.results := hs.results.mono hsub
  have hi := (hs.pcs i).mono hsub
  have hpcs : PcSourced requests (evs ++ new) i (s'.calls i).pc →
      ∀ j, PcSourced requests (evs ++ new) j (s'.calls j).pc := fun hnew =>
    forall_pc_of_moves requests (Q := PcSourced requests (evs ++ new)) hm hnew
      fun j _ => (hs.pcs j).mono hsub
  have hflushed : ∀ j batch, .flushed j batch ∈ evs ++ new → ∀ r ∈ batch, ∃ k, requests k = r := by
    intro j batch hmem
    rcases List.mem_append.mp hmem with hmem | hmem
    · exact hs.flushed j batch hmem
    · rw [flushed_of_moves hm hmem]
      exact hs.queue
  cases hm with
  | start h => exact ⟨hs.queue, hflushed, hres, hpcs (by rw [setCall_calls_self]; trivial)⟩
  | add h =>
    refine ⟨?_, hflushed, hres, hpcs (by rw [goto_pc_self]; trivial)⟩
    intro r hr
    rcases List.mem_append.mp hr with hr | hr
    · exact hs.queue r hr
    · exact ⟨i, (List.mem_singleton.mp hr).symm⟩
  | poll h hr => exact ⟨hs.queue, hflushed, hres, hpcs (by rw [goto_pc_self]; trivial)⟩
  | pop h result hr =>
    refine ⟨hs.queue, hflushed, hres.erase _, hpcs ?_⟩
    rw [goto_pc_self]
    obtain ⟨k, hk, hc⟩ := hres _ _ hr
    exact ⟨_, result, k, hk, hc, rfl⟩
  | ready h hf => exact ⟨hs.queue, hflushed, hres, hpcs (by rw [goto_pc_self]; trivial)⟩
  | sleep h hf => exact ⟨hs.queue, hflushed, hres, hpcs (by rw [goto_pc_self]; trivial)⟩
  | wake h => exact ⟨hs.queue, hflushed, hres, hpcs (by rw [goto_pc_self]; trivial)⟩
  | flushEmpty h hq =>
    exact ⟨(fun r hr => by cases hr), hflushed, hres, hpcs (by rw [goto_pc_self]; trivial)⟩
  | flush h hq =>
    refine ⟨(fun r hr => by cases hr), hflushed, hres, hpcs ?_⟩
    rw [goto_pc_self]
    refine ⟨List.mem_append_right _ (List.mem_singleton_self _), ?_, fun id r hr => by cases hr⟩
    exact fun m rs hg r hr => ⟨mem_of_mem_byModel hg r hr, modelId_of_mem_byModel hg r hr⟩
  | publish batch results h =>
    rw [h] at hi
    exact ⟨hs.queue, hflushed, hres.update hi.2.2, hpcs (by rw [goto_pc_self]; trivial)⟩
  | missing batch modelId rs groups results h hg =>
    rw [h] at hi
    obtain ⟨hf, hgroups, hpart⟩ := hi
    refine ⟨hs.queue, hflushed, hres, hpcs ?_⟩
    rw [goto_pc_self]
    refine ⟨hf, fun m rs' hmem => hgroups m rs' (List.mem_cons_of_mem _ hmem), ?_⟩
    exact hpart.missGroup hf (List.mem_append_right _ (List.mem_singleton_self _))
      (hgroups modelId rs List.mem_cons_self) (hflushed i batch hf)
  | found batch modelId rs groups results endpoint h hg =>
    rw [h] at hi
    obtain ⟨hf, hgroups, hpart⟩ := hi
    refine ⟨hs.queue, hflushed, hres, hpcs ?_⟩
    rw [goto_pc_self]
    refine ⟨hf, ⟨modelId, List.mem_append_right _ (List.mem_singleton_self _),
      hgroups modelId rs List.mem_cons_self⟩, ?_, hpart⟩
    exact fun m rs' hmem => hgroups m rs' (List.mem_cons_of_mem _ hmem)
  | predict batch endpoint rs groups results h =>
    rw [h] at hi
    obtain ⟨hf, ⟨m, hl, hrs⟩, hgroups, hpart⟩ := hi
    refine ⟨hs.queue, hflushed, hres, hpcs ?_⟩
    rw [goto_pc_self]
    refine ⟨hf, hgroups, hpart.predictGroup hf hl (fun p hp => ?_) hrs (hflushed i batch hf)⟩
    exact List.mem_append_right _ (List.mem_map.mpr ⟨p, hp, rfl⟩)
  | stay outcome h => exact ⟨hs.queue, hflushed, hres, hpcs hi⟩

theorem Sourced.step {s : Engine ι Input Output World} (h : Sourced requests evs s)
    (a : Action ι Input Output World) :
    Sourced requests (evs ++ emit s a) (s.step requests a) := by
  cases a with
  | run i => exact sourced_of_moves (advance_moves requests s i) h
  | tick now =>
    rw [show emit s (.tick now) = [] from rfl, List.append_nil]
    exact ⟨h.queue, h.flushed, h.results, h.pcs⟩
  | load modelId endpoint =>
    rw [show emit s (.load modelId endpoint) = [] from rfl, List.append_nil]
    exact ⟨h.queue, h.flushed, h.results, h.pcs⟩

/-- After every schedule, with any ids, every result and every outcome has its source. -/
theorem sourced_run (maxBatchSize : ℤ) (maxWaitMs : ℚ)
    (modelCache : Dict String (Endpoint Input Output World)) (world : World) (now : ℚ)
    (tr : List (Action ι Input Output World)) :
    Sourced requests (events requests (init maxBatchSize maxWaitMs modelCache world now) tr)
      (run (step requests) (init maxBatchSize maxWaitMs modelCache world now) tr) := by
  have h0 : Sourced requests ([] : List (Event ι Input Output World))
      (init maxBatchSize maxWaitMs modelCache world now) :=
    { queue := fun r hr => by cases hr
      flushed := fun j batch h => by cases h
      results := fun id result h => by cases h
      pcs := fun i => trivial }
  exact run_log h0 (fun _ _ h a => h.step a) tr

theorem looked_of_moves {s s' : Engine ι Input Output World} {i j : ι}
    {new : List (Event ι Input Output World)} (hm : Moves requests s i s' new)
    {batch : List (InferenceRequest Input)} {m : String}
    {found : Option (Endpoint Input Output World)} (h : .looked j batch m found ∈ new) :
    s.modelCache.get? m = found := by
  cases hm with
  | missing batch' modelId rs groups results h' hg =>
    cases List.mem_singleton.mp h
    exact hg
  | found batch' modelId rs groups results endpoint h' hg =>
    cases List.mem_singleton.mp h
    exact hg
  | flush h' hq => cases List.mem_singleton.mp h
  | publish batch' results h' => cases List.mem_singleton.mp h
  | predict batch' endpoint rs groups results h' =>
    obtain ⟨p, _, hp⟩ := List.mem_map.mp h
    cases hp
  | _ => cases h

/-- A lookup of a history read the cache as it was at that step. -/
theorem looked_cache {s : Engine ι Input Output World} {tr : List (Action ι Input Output World)}
    {j : ι} {batch : List (InferenceRequest Input)} {m : String}
    {found : Option (Endpoint Input Output World)}
    (h : .looked j batch m found ∈ events requests s tr) :
    ∃ pre, pre <+: tr ∧ (run (Engine.step requests) s pre).modelCache.get? m = found := by
  obtain ⟨pre, a, hpre, ha⟩ := exists_of_mem_log h
  refine ⟨pre, (List.prefix_append pre [a]).trans hpre, ?_⟩
  cases a with
  | run i => exact looked_of_moves (advance_moves requests _ i) ha
  | tick now => cases ha
  | load modelId endpoint => cases ha

end Sources

/-! ## How often -/

section Counts

variable [Fintype ι] [DecidableEq ι] (requests : ι → InferenceRequest Input)

/-- 1 if call `i` has the id `id` and has added its request. -/
def addedAt (id : String) (i : ι) (pc : Pc Input Output World) : ℕ :=
  match pc with
  | .created | .adding => 0
  | _ => if (requests i).requestId = id then 1 else 0

/-- The number of calls with the id `id` that have added their request. -/
def added (s : Engine ι Input Output World) (id : String) : ℕ := s.total (addedAt requests id)

/-- The number of requests with the id `id` in flushed batches that have no result yet. -/
def unanswered (s : Engine ι Input Output World) (id : String) : ℕ :=
  s.total fun _ pc => withId id pc.pending

omit [Fintype ι] [DecidableEq ι] in
theorem handed_invocations (i : ι) (batch rs : List (InferenceRequest Input))
    (endpoint : Endpoint Input Output World) (world : World) :
    handed ((invocations endpoint rs world).map fun p =>
      Event.predicted i batch p.1 endpoint p.2) = [] := by
  unfold handed
  rw [List.flatMap_map]
  exact List.flatMap_eq_nil_iff.mpr fun p _ => rfl

omit [Fintype ι] [DecidableEq ι] in
theorem invoked_invocations (i : ι) (batch rs : List (InferenceRequest Input))
    (endpoint : Endpoint Input Output World) (world : World) :
    invoked ((invocations endpoint rs world).map fun p =>
      Event.predicted i batch p.1 endpoint p.2) = rs := by
  unfold invoked
  rw [List.flatMap_map]
  show ((invocations endpoint rs world).flatMap fun p => [p.1]) = rs
  rw [← List.map_eq_flatMap, map_fst_invocations]

/-- A handed request leaves the queue, and an added one enters it. -/
theorem handed_of_moves {s s' : Engine ι Input Output World} {i : ι}
    {new : List (Event ι Input Output World)} (hm : Moves requests s i s' new) (id : String) :
    withId id (handed new) + s'.queued id + s.added requests id =
      s.queued id + s'.added requests id := by
  have ha : s'.added requests id + addedAt requests id i (s.calls i).pc =
      s.added requests id + addedAt requests id i (s'.calls i).pc :=
    total_of_moves requests hm (addedAt requests id)
  cases hm with
  | start h =>
    rw [setCall_calls_self, h] at ha
    simp only [addedAt] at ha
    show 0 + s.queued id + _ = s.queued id + _
    omega
  | add h =>
    rw [goto_pc_self, h] at ha
    simp only [addedAt] at ha
    rw [queued_add]
    show 0 + _ + _ = _
    omega
  | flushEmpty h hq =>
    rw [goto_pc_self, h] at ha
    simp only [addedAt] at ha
    show 0 + 0 + _ = withId id s.batchQueue.queue + _
    rw [hq, withId_nil]
    omega
  | flush h hq =>
    rw [goto_pc_self, h] at ha
    simp only [addedAt] at ha
    show withId id (s.batchQueue.queue ++ []) + 0 + _ = withId id s.batchQueue.queue + _
    rw [List.append_nil]
    omega
  | predict batch endpoint rs groups results h =>
    rw [goto_pc_self, h] at ha
    simp only [addedAt] at ha
    rw [handed_invocations]
    show 0 + s.queued id + _ = s.queued id + _
    omega
  | stay outcome h =>
    show 0 + _ + _ = _
    omega
  | poll h _ | pop h _ _ | ready h _ | sleep h _ | wake h | publish _ _ h | missing _ _ _ _ _ h _
  | found _ _ _ _ _ _ h _ =>
    rw [goto_pc_self, h] at ha
    simp only [addedAt] at ha
    show 0 + s.queued id + _ = s.queued id + _
    omega

/-- An invoked request was unanswered, and a handed one becomes so. -/
theorem invoked_of_moves {s s' : Engine ι Input Output World} {i : ι}
    {new : List (Event ι Input Output World)} (hm : Moves requests s i s' new) (id : String) :
    withId id (invoked new) + s'.unanswered id ≤ s.unanswered id + withId id (handed new) := by
  have hu : s'.unanswered id + withId id (s.calls i).pc.pending =
      s.unanswered id + withId id (s'.calls i).pc.pending :=
    total_of_moves requests hm fun _ pc => withId id pc.pending
  cases hm with
  | start h =>
    rw [setCall_calls_self, h] at hu
    show 0 + _ ≤ _ + 0
    simp only [Pc.pending] at hu
    omega
  | flush h hq =>
    have hbatch : withId id (ungroup (byModel s.batchQueue.queue).entries) =
        withId id s.batchQueue.queue := withId_perm (ungroup_byModel _)
    rw [goto_pc_self, h] at hu
    show 0 + _ ≤ _ + withId id (s.batchQueue.queue ++ [])
    simp only [Pc.pending, hbatch, withId_nil] at hu
    rw [List.append_nil]
    omega
  | publish batch results h =>
    rw [goto_pc_self, h] at hu
    show 0 + _ ≤ _ + 0
    simp only [Pc.pending, ungroup, List.flatMap_nil] at hu
    omega
  | missing batch modelId rs groups results h hg =>
    rw [goto_pc_self, h] at hu
    show 0 + _ ≤ _ + 0
    simp only [Pc.pending, ungroup_cons, withId_append] at hu
    omega
  | found batch modelId rs groups results endpoint h hg =>
    rw [goto_pc_self, h] at hu
    show 0 + _ ≤ _ + 0
    simp only [Pc.pending, ungroup_cons] at hu
    omega
  | predict batch endpoint rs groups results h =>
    rw [goto_pc_self, h] at hu
    simp only [Pc.pending, withId_append] at hu
    rw [handed_invocations, invoked_invocations, withId_nil]
    omega
  | stay outcome h =>
    show 0 + _ ≤ _ + 0
    omega
  | add h | poll h _ | pop h _ _ | ready h _ | sleep h _ | wake h | flushEmpty h _ =>
    rw [goto_pc_self, h] at hu
    show 0 + _ ≤ _ + 0
    simp only [Pc.pending] at hu
    omega

/-- Added requests were handed once or are queued, and the handed ones were invoked once or are
unanswered or done. -/
structure Counted (evs : List (Event ι Input Output World)) (s : Engine ι Input Output World) :
    Prop where
  handed_eq : ∀ id, withId id (handed evs) + s.queued id = s.added requests id
  invoked_le : ∀ id, withId id (invoked evs) + s.unanswered id ≤ withId id (handed evs)

variable {requests}

theorem Counted.step {evs : List (Event ι Input Output World)} {s : Engine ι Input Output World}
    (h : Counted requests evs s) (a : Action ι Input Output World) :
    Counted requests (evs ++ emit s a) (s.step requests a) := by
  cases a with
  | run i =>
    have hm := advance_moves requests s i
    refine ⟨fun id => ?_, fun id => ?_⟩
    · have hmove := handed_of_moves requests hm id
      have heq := h.handed_eq id
      rw [handed_append, withId_append]
      show _ + withId id (handed (s.observe i)) + (s.advance requests i).queued id =
        (s.advance requests i).added requests id
      omega
    · have hmove := invoked_of_moves requests hm id
      have hle := h.invoked_le id
      rw [handed_append, invoked_append, withId_append, withId_append]
      show _ + withId id (invoked (s.observe i)) + (s.advance requests i).unanswered id ≤
        _ + withId id (handed (s.observe i))
      omega
  | tick now =>
    rw [show emit s (.tick now) = [] from rfl, List.append_nil]
    exact ⟨h.handed_eq, h.invoked_le⟩
  | load modelId endpoint =>
    rw [show emit s (.load modelId endpoint) = [] from rfl, List.append_nil]
    exact ⟨h.handed_eq, h.invoked_le⟩

theorem counted_run (maxBatchSize : ℤ) (maxWaitMs : ℚ)
    (modelCache : Dict String (Endpoint Input Output World)) (world : World) (now : ℚ)
    (tr : List (Action ι Input Output World)) :
    Counted requests (events requests (init maxBatchSize maxWaitMs modelCache world now) tr)
      (run (Engine.step requests) (init maxBatchSize maxWaitMs modelCache world now) tr) := by
  have h0 : Counted requests ([] : List (Event ι Input Output World))
      (init maxBatchSize maxWaitMs modelCache world now) := by
    refine ⟨fun id => ?_, fun id => ?_⟩
    · simp [handed, queued, added, total, init, addedAt]
    · simp [handed, invoked, unanswered, total, init, Pc.pending]
  exact run_log h0 (fun _ _ h a => h.step a) tr

omit [DecidableEq ι] in
theorem added_le_one (hinj : Function.Injective fun i => (requests i).requestId)
    (s : Engine ι Input Output World) (id : String) : s.added requests id ≤ 1 := by
  have hle : ∀ i ∈ Finset.univ, addedAt requests id i (s.calls i).pc ≤
      if (requests i).requestId = id then 1 else 0 := by
    intro i _
    unfold addedAt
    split <;> omega
  refine (Finset.sum_le_sum hle).trans ?_
  rw [Finset.sum_boole, Nat.cast_id]
  refine Finset.card_le_one.mpr fun i hi j hj => hinj ?_
  rw [Finset.mem_filter] at hi hj
  exact hi.2.trans hj.2.symm

/-! ## Delivery -/

variable (requests) in
/-- Each id is handed to a batch at most once and predicted at most once, and every finished call
delivers what was computed for its own request from what the cache then held for its model. -/
structure Delivers (s₀ : Engine ι Input Output World) (tr : List (Action ι Input Output World)) :
    Prop where
  handed_once : ∀ id, withId id (handed (events requests s₀ tr)) ≤ 1
  invoked_once : ∀ id, withId id (invoked (events requests s₀ tr)) ≤ 1
  own : ∀ i outcome, ((run (Engine.step requests) s₀ tr).calls i).pc = .finished outcome →
    ∃ latencyMs result, Computed (events requests s₀ tr) (requests i) result ∧
      outcome = deliver (requests i) latencyMs result
  cached : ∀ j batch m found, .looked j batch m found ∈ events requests s₀ tr →
    ∃ pre, pre <+: tr ∧ (run (Engine.step requests) s₀ pre).modelCache.get? m = found

/-- Two calls of one model with ids of their own. -/
def twoIds : Bool → InferenceRequest ℕ
  | false => ⟨"a", "m", 1⟩
  | true => ⟨"b", "m", 2⟩

theorem twoIds_injective : Function.Injective fun b => (twoIds b).requestId := by
  rintro (_ | _) (_ | _) h
  · rfl
  · exact absurd h (by decide)
  · exact absurd h (by decide)
  · rfl

/-- The model doubles its input. -/
def doubling : Endpoint ℕ ℕ Unit := ⟨"m", fun world n => (.ok (2 * n), world)⟩

/-- Both calls add their request, the first one runs the batch of both, and both finish. -/
def sharedBatch : List (Action Bool ℕ ℕ Unit) :=
  [.load "m" doubling, .run false, .run false, .run true, .run true, .tick 2, .run false,
    .run false, .run false, .run false, .run false, .run false, .run false, .run true]

end Counts

end Engine

end PyStreamAI
