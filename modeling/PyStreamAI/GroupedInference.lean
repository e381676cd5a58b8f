import PyStreamAI.InferenceEngine
import PyStreamAI.Regrouping

/-!
# Grouped inference

`_run_batch_inference` serves a batch model by model. As long as no two models share state, the
order in which requests of different models are served makes no difference: the batch comes out as
its requests do one by one, in the order of arrival (`grouped_matches_oneByOne`).
-/

open Py Machine

namespace PyStreamAI

variable {Input Output World : Type}

/-! ## The call -/

/-- The loop of `_run_batch_inference` over the groups. -/
def runGroups (cache : Dict String (Endpoint Input Output World)) (batchSize : ℕ) :
    List (String × List (InferenceRequest Input)) → Dict String (BatchResult Output) → World →
      Dict String (BatchResult Output) × World
  | [], results, world => (results, world)
  | (modelId, requests) :: groups, results, world =>
    match cache.get? modelId with
    | none => runGroups cache batchSize groups (missGroup modelId batchSize requests results) world
    | some endpoint =>
      let (results, world) := predictGroup endpoint batchSize requests results world
      runGroups cache batchSize groups results world

/-- Run real inference for every request in the batch, with a cache that stays as it is. -/
def runBatchInference (cache : Dict String (Endpoint Input Output World))
    (batch : List (InferenceRequest Input)) (world : World) :
    Dict String (BatchResult Output) × World :=
  runGroups cache batch.length (byModel batch).entries ∅ world

/-- Every request run as a batch of its own, in the order of arrival. -/
def runOneByOne (cache : Dict String (Endpoint Input Output World)) :
    List (InferenceRequest Input) → Dict String (BatchResult Output) → World →
      Dict String (BatchResult Output) × World
  | [], results, world => (results, world)
  | r :: rs, results, world =>
    let (own, world) := runBatchInference cache [r] world
    runOneByOne cache rs (results.update own) world

/-- What a caller of `infer` sees of a result; the batch size is not part of it. -/
def BatchResult.outcome (result : BatchResult Output) : Option Output × Option String :=
  (result.output, result.error)

/-! ## One request at a time -/

section Serving

variable (cache : Dict String (Endpoint Input Output World))

/-- The world after one request. -/
def serve (world : World) (r : InferenceRequest Input) : World :=
  match cache.get? r.modelId with
  | none => world
  | some endpoint => (endpoint.predict world r.inputData).2

/-- The result of one request. -/
def answer (batchSize : ℕ) (world : World) (r : InferenceRequest Input) : BatchResult Output :=
  match cache.get? r.modelId with
  | none => missingResult r.modelId batchSize
  | some endpoint => predictedResult (endpoint.predict world r.inputData).1 batchSize

/-- The entry one request adds to the results. -/
def emitAnswer (batchSize : ℕ) (world : World) (r : InferenceRequest Input) :
    List (String × BatchResult Output) :=
  [(r.requestId, answer cache batchSize world r)]

/-- The entries that serving `rs` in this order adds. -/
def answers (batchSize : ℕ) (world : World) (rs : List (InferenceRequest Input)) :
    List (String × BatchResult Output) :=
  log (serve cache) (emitAnswer cache batchSize) world rs

/-- `results` with the entries `es` assigned one after the other. -/
def assignAll (results : Dict String (BatchResult Output))
    (es : List (String × BatchResult Output)) : Dict String (BatchResult Output) :=
  es.foldl (fun d e => d.set e.1 e.2) results

variable {cache}

theorem map_fst_answers (batchSize : ℕ) (world : World) (rs : List (InferenceRequest Input)) :
    (answers cache batchSize world rs).map Prod.fst = rs.map InferenceRequest.requestId := by
  unfold answers
  induction rs generalizing world with
  | nil => rfl
  | cons r rs ih => rw [log, List.map_append, ih, List.map_cons]; rfl

theorem answers_append (batchSize : ℕ) (world : World) (rs rs' : List (InferenceRequest Input)) :
    answers cache batchSize world (rs ++ rs') = answers cache batchSize world rs ++
      answers cache batchSize (run (serve cache) world rs) rs' := log_append world rs rs'

theorem assignAll_append (results : Dict String (BatchResult Output))
    (es es' : List (String × BatchResult Output)) :
    assignAll results (es ++ es') = assignAll (assignAll results es) es' := List.foldl_append

theorem predictGroup_eq {m : String} {endpoint : Endpoint Input Output World}
    (hm : cache.get? m = some endpoint) (batchSize : ℕ) {rs : List (InferenceRequest Input)}
    (hrs : ∀ r ∈ rs, r.modelId = m) (results : Dict String (BatchResult Output)) (world : World) :
    predictGroup endpoint batchSize rs results world =
      (assignAll results (answers cache batchSize world rs), run (serve cache) world rs) := by
  induction rs generalizing results world with
  | nil => rfl
  | cons r rs ih =>
    have hr : cache.get? r.modelId = some endpoint := by rw [hrs r List.mem_cons_self, hm]
    have hserve : serve cache world r = (endpoint.predict world r.inputData).2 := by
      unfold serve
      rw [hr]
    have hanswer : answer cache batchSize world r =
        predictedResult (endpoint.predict world r.inputData).1 batchSize := by
      unfold answer
      rw [hr]
    rw [predictGroup]
    dsimp only
    rw [ih fun q hq => hrs q (List.mem_cons_of_mem r hq)]
    rw [run_cons, hserve]
    unfold answers
    rw [log, hserve, emitAnswer, hanswer]
    rfl

theorem missGroup_eq {m : String} (hm : cache.get? m = none) (batchSize : ℕ)
    {rs : List (InferenceRequest Input)} (hrs : ∀ r ∈ rs, r.modelId = m)
    (results : Dict String (BatchResult Output)) (world : World) :
    missGroup m batchSize rs results = assignAll results (answers cache batchSize world rs) ∧
      run (serve cache) world rs = world := by
  induction rs generalizing results with
  | nil => exact ⟨rfl, rfl⟩
  | cons r rs ih =>
    have hr : cache.get? r.modelId = none := by rw [hrs r List.mem_cons_self, hm]
    have hserve : serve cache world r = world := by
      unfold serve
      rw [hr]
    have hanswer : answer cache batchSize world r = missingResult m batchSize := by
      unfold answer
      rw [hr, hrs r List.mem_cons_self]
    have hih := ih (fun q hq => hrs q (List.mem_cons_of_mem r hq))
      (results.set r.requestId (missingResult m batchSize))
    constructor
    · unfold answers
      rw [log, hserve, emitAnswer, hanswer]
      exact hih.1
    · rw [run_cons, hserve]
      exact hih.2

/-- The loop over the groups serves their requests one after the other. -/
theorem runGroups_eq (batchSize : ℕ) {groups : List (String × List (InferenceRequest Input))}
    (hgroups : ∀ g ∈ groups, ∀ r ∈ g.2, r.modelId = g.1)
    (results : Dict String (BatchResult Output)) (world : World) :
    runGroups cache batchSize groups results world =
      (assignAll results (answers cache batchSize world (ungroup groups)),
        run (serve cache) world (ungroup groups)) := by
  induction groups generalizing results world with
  | nil => rfl
  | cons g groups ih =>
    obtain ⟨m, rs⟩ := g
    have hrs : ∀ r ∈ rs, r.modelId = m := hgroups (m, rs) List.mem_cons_self
    have hrest : ∀ g ∈ groups, ∀ r ∈ g.2, r.modelId = g.1 := fun g hg =>
      hgroups g (List.mem_cons_of_mem _ hg)
    rw [ungroup_cons, answers_append, assignAll_append, run_append, runGroups]
    cases hm : cache.get? m with
    | none =>
      obtain ⟨hmiss, hworld⟩ := missGroup_eq hm batchSize hrs results world
      dsimp only
      rw [ih hrest, hmiss, hworld]
    | some endpoint =>
      dsimp only
      rw [predictGroup_eq hm batchSize hrs, ih hrest]

theorem runBatchInference_eq (batch : List (InferenceRequest Input)) (world : World) :
    runBatchInference cache batch world =
      (assignAll ∅ (answers cache batch.length world (ungroup (byModel batch).entries)),
        run (serve cache) world (ungroup (byModel batch).entries)) :=
  runGroups_eq batch.length (fun _ hg => modelId_of_mem_byModel hg) ∅ world

theorem runOneByOne_eq (rs : List (InferenceRequest Input))
    (results : Dict String (BatchResult Output)) (world : World) :
    runOneByOne cache rs results world =
      (assignAll results (answers cache 1 world rs), run (serve cache) world rs) := by
  induction rs generalizing results world with
  | nil => rfl
  | cons r rs ih =>
    have hown : runBatchInference cache [r] world =
        (assignAll ∅ [(r.requestId, answer cache 1 world r)], serve cache world r) :=
      runBatchInference_eq [r] world
    rw [runOneByOne, hown]
    dsimp only
    rw [ih]
    rfl

/-! ## What the results hold -/

theorem get?_assignAll {es : List (String × BatchResult Output)} (hn : (es.map Prod.fst).Nodup)
    (id : String) : (assignAll ∅ es).get? id = Dict.lookupItem id es := by
  unfold assignAll
  rw [Dict.get?_foldl_set hn, Dict.get?_empty, Option.or_none]

theorem keys_assignAll {es : List (String × BatchResult Output)} (hn : (es.map Prod.fst).Nodup) :
    (assignAll ∅ es).keys.Perm (es.map Prod.fst) := by
  apply (List.perm_ext_iff_of_nodup (assignAll ∅ es).nodup hn).mpr
  intro id
  show id ∈ (assignAll ∅ es).keys ↔ _
  rw [← not_iff_not, ← Dict.get?_eq_none, get?_assignAll hn, Dict.lookupItem_eq_none]

/-- The entry of a request is its answer in the world it finds. -/
theorem lookupItem_answers {u v : List (InferenceRequest Input)} {r : InferenceRequest Input}
    (hn : ((u ++ r :: v).map InferenceRequest.requestId).Nodup) (batchSize : ℕ) (world : World) :
    Dict.lookupItem r.requestId (answers cache batchSize world (u ++ r :: v)) =
      some (answer cache batchSize (run (serve cache) world u) r) := by
  rw [Dict.lookupItem_eq_some (by rwa [map_fst_answers]), answers_append]
  exact List.mem_append_right _ List.mem_cons_self

theorem outcome_answer (batchSize : ℕ) (world : World) (r : InferenceRequest Input) :
    (answer cache batchSize world r).outcome = (answer cache 1 world r).outcome := by
  unfold answer
  cases cache.get? r.modelId with
  | none => rfl
  | some endpoint =>
    dsimp only
    cases (endpoint.predict world r.inputData).1 <;> rfl

theorem map_outcome_answers (batchSize : ℕ) (world : World) (rs : List (InferenceRequest Input)) :
    (answers cache batchSize world rs).map (fun e => (e.1, e.2.outcome)) =
      (answers cache 1 world rs).map fun e => (e.1, e.2.outcome) := by
  have hemit : ∀ w r, (emitAnswer cache batchSize w r).map (fun e => (e.1, e.2.outcome)) =
      (emitAnswer cache 1 w r).map fun e => (e.1, e.2.outcome) := fun w r => by
    simp only [emitAnswer, List.map_cons, List.map_nil, outcome_answer batchSize w r]
  unfold answers
  rw [map_log, map_log]
  simp only [hemit]

end Serving

/-! ## Grouping -/

theorem getD_byModel (batch : List (InferenceRequest Input)) (m : String) :
    (byModel batch).getD m [] = batch.filter fun r => r.modelId = m := by
  induction batch using List.reverseRecOn with
  | nil => rfl
  | append_singleton batch r ih =>
    rw [byModel_snoc, Dict.getD_set, List.filter_append]
    by_cases h : m = r.modelId
    · subst h
      rw [if_pos rfl, ih, List.filter_cons_of_pos (by simp), List.filter_nil]
    · rw [if_neg h, ih, List.filter_cons_of_neg (by simpa using Ne.symm h), List.filter_nil,
        List.append_nil]

/-- The requests of one model among the grouped ones are its group. -/
theorem filter_ungroup {groups : List (String × List (InferenceRequest Input))}
    (hgroups : ∀ g ∈ groups, ∀ r ∈ g.2, r.modelId = g.1) (hn : (groups.map Prod.fst).Nodup)
    (m : String) :
    (ungroup groups).filter (fun r => r.modelId = m) = (Dict.lookupItem m groups).getD [] := by
  induction groups with
  | nil => rfl
  | cons g groups ih =>
    obtain ⟨m', rs⟩ := g
    have hrs : ∀ r ∈ rs, r.modelId = m' := hgroups (m', rs) List.mem_cons_self
    rw [List.map_cons, List.nodup_cons] at hn
    have hrest := ih (fun g hg => hgroups g (List.mem_cons_of_mem _ hg)) hn.2
    rw [ungroup_cons, List.filter_append, hrest, Dict.lookupItem]
    by_cases h : m' = m
    · subst h
      have hnone : Dict.lookupItem m' groups = none := Dict.lookupItem_eq_none.mpr hn.1
      have hall : rs.filter (fun r => r.modelId = m') = rs :=
        List.filter_eq_self.mpr fun r hr => decide_eq_true (hrs r hr)
      rw [if_pos rfl, hnone, hall]
      exact List.append_nil rs
    · have hnil : rs.filter (fun r => r.modelId = m) = [] := by
        apply List.filter_eq_nil_iff.mpr
        intro r hr
        rw [hrs r hr]
        simpa using h
      rw [if_neg h, hnil, List.nil_append]

/-- Grouping keeps the order within each model. -/
theorem regroups_byModel (batch : List (InferenceRequest Input)) :
    Regroups InferenceRequest.modelId (ungroup (byModel batch).entries) batch := by
  intro m
  rw [filter_ungroup (fun _ hg => modelId_of_mem_byModel hg) (byModel batch).nodup]
  exact getD_byModel batch m

/-! ## Models that share no state -/

section Separated

variable {S : String → Type} {cache : Dict String (Endpoint Input Output (∀ m, S m))}

/-- The endpoint cached under `m` is a state machine on the state `S m` of its own. -/
def Separate (cache : Dict String (Endpoint Input Output (∀ m, S m))) : Prop :=
  ∀ m endpoint, cache.get? m = some endpoint →
    ∃ machine : S m → Input → Except Error Output × S m, ∀ world x,
      endpoint.predict world x =
        ((machine (world m) x).1, Function.update world m (machine (world m) x).2)

/-- Serving a request reads and changes the state of its model. -/
theorem Separate.exists_machine (h : Separate cache) (r : InferenceRequest Input) :
    ∃ (next : S r.modelId → S r.modelId) (result : S r.modelId → ℕ → BatchResult Output),
      ∀ world, serve cache world r = Function.update world r.modelId (next (world r.modelId)) ∧
        ∀ n, answer cache n world r = result (world r.modelId) n := by
  unfold serve answer
  cases hm : cache.get? r.modelId with
  | none =>
    refine ⟨id, fun _ n => missingResult r.modelId n, fun world => ⟨?_, fun n => rfl⟩⟩
    exact (Function.update_eq_self r.modelId world).symm
  | some endpoint =>
    obtain ⟨machine, hmachine⟩ := h r.modelId endpoint hm
    refine ⟨fun st => (machine st r.inputData).2,
      fun st n => predictedResult (machine st r.inputData).1 n, fun world => ⟨?_, fun n => ?_⟩⟩
    · dsimp only
      rw [hmachine]
    · dsimp only
      rw [hmachine]

theorem Separate.independent (h : Separate cache) (batchSize : ℕ) :
    Independent (serve cache) (emitAnswer cache batchSize) InferenceRequest.modelId where
  step_comm world a b hab := by
    obtain ⟨nexta, resulta, ha⟩ := h.exists_machine a
    obtain ⟨nextb, resultb, hb⟩ := h.exists_machine b
    rw [(ha world).1, (hb world).1, (hb _).1, (ha _).1, Function.update_of_ne hab.symm,
      Function.update_of_ne hab]
    exact Function.update_comm hab _ _ world
  emit_step world a b hab := by
    obtain ⟨nexta, resulta, ha⟩ := h.exists_machine a
    obtain ⟨nextb, resultb, hb⟩ := h.exists_machine b
    unfold emitAnswer
    rw [(hb _).2, (hb _).2, (ha world).1, Function.update_of_ne hab.symm]

/-- Two caches, and two worlds, that differ at most in the model `m`. -/
structure AgreeOff (m : String) (cache cache' : Dict String (Endpoint Input Output (∀ m, S m)))
    (world world' : ∀ m, S m) : Prop where
  endpoints : ∀ m', m' ≠ m → cache'.get? m' = cache.get? m'
  states : ∀ m', m' ≠ m → world' m' = world m'

variable {m : String} {cache' : Dict String (Endpoint Input Output (∀ m, S m))}
  {world world' : ∀ m, S m}

/-- What the model `m` does to its requests leaves the state of the others as it is. -/
theorem AgreeOff.after_serve (h : Separate cache) (h' : Separate cache')
    (hagree : AgreeOff m cache cache' world world') (r : InferenceRequest Input) :
    AgreeOff m cache cache' (serve cache world r) (serve cache' world' r) := by
  refine ⟨hagree.endpoints, fun m' hm' => ?_⟩
  by_cases hr : r.modelId = m
  · obtain ⟨next, result, hserve⟩ := h.exists_machine r
    obtain ⟨next', result', hserve'⟩ := h'.exists_machine r
    rw [(hserve world).1, (hserve' world').1]
    rw [Function.update_of_ne (hr ▸ hm'), Function.update_of_ne (hr ▸ hm')]
    exact hagree.states m' hm'
  · have hsame : ∀ w, serve cache' w r = serve cache w r := fun w => by
      unfold serve
      rw [hagree.endpoints r.modelId hr]
    obtain ⟨next, result, hserve⟩ := h.exists_machine r
    rw [hsame, (hserve world).1, (hserve world').1, hagree.states r.modelId hr]
    by_cases hm : m' = r.modelId
    · subst hm
      rw [Function.update_self, Function.update_self]
    · rw [Function.update_of_ne hm, Function.update_of_ne hm]
      exact hagree.states m' hm'

theorem AgreeOff.after_run (h : Separate cache) (h' : Separate cache')
    (hagree : AgreeOff m cache cache' world world') (rs : List (InferenceRequest Input)) :
    AgreeOff m cache cache' (run (serve cache) world rs)
      (run (serve cache') world' rs) := by
  induction rs generalizing world world' with
  | nil => exact hagree
  | cons r rs ih => exact ih (hagree.after_serve h h' r)

/-- A request of another model does not see the difference. -/
theorem AgreeOff.answer_eq (h : Separate cache) (hagree : AgreeOff m cache cache' world world')
    {r : InferenceRequest Input} (hr : r.modelId ≠ m) (n : ℕ) :
    answer cache' n world' r = answer cache n world r := by
  have hsame : answer cache' n world' r = answer cache n world' r := by
    unfold answer
    rw [hagree.endpoints r.modelId hr]
  obtain ⟨next, result, hserve⟩ := h.exists_machine r
  rw [hsame, (hserve world').2, (hserve world).2, hagree.states r.modelId hr]

/-- A model that is missing, raises or does anything else changes the entries of its own requests
and its own state alone. -/
theorem isolated_runBatchInference (h : Separate cache) (h' : Separate cache')
    (hagree : AgreeOff m cache cache' world world') {batch : List (InferenceRequest Input)}
    (hids : (batch.map InferenceRequest.requestId).Nodup) :
    (∀ r ∈ batch, r.modelId ≠ m →
      (runBatchInference cache' batch world').1.get? r.requestId =
        (runBatchInference cache batch world).1.get? r.requestId) ∧
    ∀ m', m' ≠ m →
      (runBatchInference cache' batch world').2 m' = (runBatchInference cache batch world).2 m' := by
  have hperm := ungroup_byModel batch
  have hn : ((ungroup (byModel batch).entries).map InferenceRequest.requestId).Nodup :=
    (hperm.map _).nodup_iff.mpr hids
  rw [runBatchInference_eq, runBatchInference_eq]
  refine ⟨fun r hr hm => ?_, (hagree.after_run h h' _).states⟩
  obtain ⟨u, v, huv⟩ := List.append_of_mem (hperm.mem_iff.mpr hr)
  dsimp only
  rw [get?_assignAll (by rwa [map_fst_answers]), get?_assignAll (by rwa [map_fst_answers])]
  rw [huv] at hn ⊢
  rw [lookupItem_answers hn, lookupItem_answers hn, (hagree.after_run h h' u).answer_eq h hm]

/-- Served in groups or one by one, every request of a batch with distinct ids has the same outcome
and every endpoint ends in the same state; each request has one entry; one by one, that is what its
endpoint predicts in the state the earlier requests left; and a model is felt by its own requests
alone. -/
theorem grouped_matches_oneByOne (h : Separate cache) {batch : List (InferenceRequest Input)}
    (hids : (batch.map InferenceRequest.requestId).Nodup) (world : ∀ m, S m) :
    let grouped := runBatchInference cache batch world
    let single := runOneByOne cache batch ∅ world
    (∀ id, (grouped.1.get? id).map BatchResult.outcome =
      (single.1.get? id).map BatchResult.outcome) ∧
    grouped.2 = single.2 ∧
    grouped.1.keys.Perm (batch.map InferenceRequest.requestId) ∧
    (∀ u r v, batch = u ++ r :: v → (grouped.1.get? r.requestId).map BatchResult.outcome =
      some (answer cache 1 (run (serve cache) world u) r).outcome) ∧
    grouped.2 = run (serve cache) world batch ∧
    ∀ m cache' world', Separate cache' → AgreeOff m cache cache' world world' →
      let other := runBatchInference cache' batch world'
      (∀ r ∈ batch, r.modelId ≠ m →
        other.1.get? r.requestId = grouped.1.get? r.requestId) ∧
      ∀ m', m' ≠ m → other.2 m' = grouped.2 m' := by
  intro grouped single
  have hperm := ungroup_byModel batch
  have hn : ((ungroup (byModel batch).entries).map InferenceRequest.requestId).Nodup :=
    (hperm.map _).nodup_iff.mpr hids
  have hgrouped : grouped = _ := runBatchInference_eq batch world
  have hsingle : single = _ := runOneByOne_eq batch ∅ world
  have houtcome : ∀ id, (grouped.1.get? id).map BatchResult.outcome =
      (single.1.get? id).map BatchResult.outcome := by
    intro id
    have hlog := (h.independent 1).log_perm (regroups_byModel batch) world
    rw [hgrouped, hsingle]
    dsimp only
    rw [get?_assignAll (by rwa [map_fst_answers]), get?_assignAll (by rwa [map_fst_answers])]
    rw [← Dict.lookupItem_map, ← Dict.lookupItem_map, map_outcome_answers]
    refine Dict.lookupItem_perm ?_ (hlog.map _) id
    rw [List.map_map]
    show ((answers cache 1 world (ungroup (byModel batch).entries)).map Prod.fst).Nodup
    rwa [map_fst_answers]
  have hworld : grouped.2 = single.2 := by
    rw [hgrouped, hsingle]
    exact (h.independent 1).run_eq (regroups_byModel batch) world
  refine ⟨houtcome, hworld, ?_, ?_, by rw [hworld, hsingle], fun m cache' world' h' hagree =>
    isolated_runBatchInference h h' hagree hids⟩
  · rw [hgrouped]
    have hanswers : ((answers cache batch.length world
        (ungroup (byModel batch).entries)).map Prod.fst).Nodup := by rwa [map_fst_answers]
    have hkeys := keys_assignAll hanswers
    rw [map_fst_answers] at hkeys
    exact hkeys.trans (hperm.map _)
  · rintro u r v rfl
    rw [houtcome, hsingle, get?_assignAll (by rwa [map_fst_answers]), lookupItem_answers hids]
    rfl

/-- An endpoint that counts its successful calls and refuses the input 0. -/
def countingEndpoint (m : String) : Endpoint ℕ ℕ (String → ℕ) where
  modelId := m
  predict world x :=
    if x = 0 then (.error ⟨"ValueError", "zero"⟩, Function.update world m (world m))
    else (.ok (world m + x), Function.update world m (world m + 1))

theorem separate_counting {cache : Dict String (Endpoint ℕ ℕ (String → ℕ))}
    (h : ∀ m endpoint, cache.get? m = some endpoint → endpoint = countingEndpoint m) :
    Separate (S := fun _ => ℕ) cache := by
  intro m endpoint hget
  obtain rfl := h m endpoint hget
  refine ⟨fun n x => if x = 0 then (.error ⟨"ValueError", "zero"⟩, n) else (.ok (n + x), n + 1),
    fun world x => ?_⟩
  unfold countingEndpoint
  dsimp only
  split_ifs <;> rfl

/-- A batch over two models, one of which raises, and a third one that is not loaded. -/
theorem grouped_matches_oneByOne_counting :
    let cache := ((∅ : Dict String (Endpoint ℕ ℕ (String → ℕ))).set "a" (countingEndpoint "a")).set
      "b" (countingEndpoint "b")
    let batch : List (InferenceRequest ℕ) :=
      [⟨"r1", "a", 1⟩, ⟨"r2", "b", 0⟩, ⟨"r3", "a", 2⟩, ⟨"r4", "c", 3⟩]
    let grouped := runBatchInference cache batch fun _ => 0
    let single := runOneByOne cache batch ∅ fun _ => 0
    (∀ id, (grouped.1.get? id).map BatchResult.outcome =
      (single.1.get? id).map BatchResult.outcome) ∧
    grouped.2 = single.2 ∧ grouped.1.keys.Perm ["r1", "r2", "r3", "r4"] := by
  intro cache batch grouped single
  have hcache : Separate (S := fun _ => ℕ) cache := by
    apply separate_counting
    intro m endpoint hget
    rw [Dict.get?_set, Dict.get?_set] at hget
    split_ifs at hget with hb ha
    · rw [← Option.some.inj hget, hb]
    · rw [← Option.some.inj hget, ha]
    · cases hget
  have hids : (batch.map InferenceRequest.requestId).Nodup := by decide
  have hall := grouped_matches_oneByOne hcache hids fun _ => 0
  exact ⟨hall.1, hall.2.1, hall.2.2.1⟩

end Separated

/-! ## The call within the engine -/

namespace Engine

variable {ι : Type} [DecidableEq ι]

theorem goto_goto (s : Engine ι Input Output World) (i : ι) (pc pc' : Pc Input Output World)
    (world : World) :
    { s.goto i pc with world }.goto i pc' = { s with world }.goto i pc' := by
  simp [goto, setCall]

theorem goto_self (s : Engine ι Input Output World) (i : ι) : s.goto i (s.calls i).pc = s := by
  simp [goto, setCall]

/-- A call that runs through its batch without the others computes what `runGroups` does. -/
theorem run_batching (requests : ι → InferenceRequest Input) {i : ι}
    {batch : List (InferenceRequest Input)}
    (groups : List (String × List (InferenceRequest Input))) :
    ∀ (s : Engine ι Input Output World) (results : Dict String (BatchResult Output)),
      (s.calls i).pc = .batching batch groups results →
      ∃ k, run (step requests) s (List.replicate k (.run i)) =
        { s with world := (runGroups s.modelCache batch.length groups results s.world).2 }.goto i
          (.batching batch [] (runGroups s.modelCache batch.length groups results s.world).1) := by
  induction groups with
  | nil =>
    intro s results hpc
    refine ⟨0, ?_⟩
    show s = s.goto i (.batching batch [] results)
    rw [← hpc, goto_self]
  | cons g groups ih =>
    obtain ⟨m, rs⟩ := g
    intro s results hpc
    cases hm : s.modelCache.get? m with
    | none =>
      have hstep : step requests s (.run i) =
          s.goto i (.batching batch groups (missGroup m batch.length rs results)) := by
        simp only [step, advance, hpc, hm]
      obtain ⟨k, hk⟩ := ih (s.goto i (.batching batch groups (missGroup m batch.length rs results)))
        (missGroup m batch.length rs results) (goto_pc_self s i _)
      refine ⟨k + 1, ?_⟩
      rw [List.replicate_succ, run_cons, hstep, hk, goto_goto, runGroups, hm]
      rfl
    | some endpoint =>
      have hlook : step requests s (.run i) =
          s.goto i (.predicting batch endpoint rs groups results) := by
        simp only [step, advance, hpc, hm]
      have hpredict : step requests (s.goto i (.predicting batch endpoint rs groups results))
          (.run i) = { s with
            world := (predictGroup endpoint batch.length rs results s.world).2 }.goto i
              (.batching batch groups (predictGroup endpoint batch.length rs results s.world).1) := by
        simp only [step, advance, goto_pc_self]
        exact goto_goto s i _ _ _
      obtain ⟨k, hk⟩ := ih ({ s with
        world := (predictGroup endpoint batch.length rs results s.world).2 }.goto i
          (.batching batch groups (predictGroup endpoint batch.length rs results s.world).1))
        _ (goto_pc_self _ i _)
      refine ⟨k + 2, ?_⟩
      rw [List.replicate_succ, List.replicate_succ, run_cons, run_cons, hlook, hpredict, hk,
        goto_goto, runGroups, hm]
      rfl

/-- From a flush on, that is `_run_batch_inference` on the batch. -/
theorem run_flushed (requests : ι → InferenceRequest Input) {s : Engine ι Input Output World}
    {i : ι} {batch : List (InferenceRequest Input)}
    (h : (s.calls i).pc = .batching batch (byModel batch).entries ∅) :
    ∃ k, run (step requests) s (List.replicate k (.run i)) =
      { s with world := (runBatchInference s.modelCache batch s.world).2 }.goto i
        (.batching batch [] (runBatchInference s.modelCache batch s.world).1) :=
  run_batching requests (byModel batch).entries s ∅ h

end Engine

end PyStreamAI
