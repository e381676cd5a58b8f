import PyStreamAI.Caching
import PyStreamAI.Machine

/-!
# What the hybrid cache answers

The answer of `get_result` is a function of the calls made before it. `held` is the result the
result cache holds for a model and an input, `similar` the call whose result the semantic cache
serves for an input, and `served` puts them together as the code does. Every reachable cache
tracks the history of its calls (`tracks_run`), so it answers as served (`getResult_eq_served`).
-/

open Py Machine

namespace PyStreamAI

variable {V S : Type} [Cacheable V]

/-! ## Histories -/

/-- A result that was stored, with the model and the input it was stored for. -/
structure Stored (V : Type) where
  modelId : String
  inputData : Json
  result : V

/-- The text the semantic cache knows an input by. -/
def Stored.query (p : Stored V) : String := p.inputData.dumps false

/-- What a call stores. A result without a JSON dump raises before anything is stored. -/
def CacheOp.stored? : CacheOp V → Option (Stored V)
  | .setResult modelId inputData result =>
    match Cacheable.dumpSize result with
    | .ok _ => some ⟨modelId, inputData, result⟩
    | .error _ => none
  | _ => none

/-- What the calls stored, in order. -/
def sets (tr : List (CacheOp V)) : List (Stored V) := tr.filterMap CacheOp.stored?

/-- The last result stored under the text `query`. -/
def lastFor (query : String) (tr : List (CacheOp V)) : Option (Stored V) :=
  ((sets tr).filter fun p => p.query = query).getLast?

/-- What a call leaves of the result held for a model and an input. -/
def heldAfter (modelId : String) (inputData : Json) (before : Option V) (op : CacheOp V) :
    Option V :=
  match op with
  | .invalidateModel m => if m = modelId then none else before
  | op =>
    match op.stored? with
    | some p =>
      if p.modelId = modelId ∧ p.inputData.dumps true = inputData.dumps true then some p.result
      else before
    | none => before

/-- The result held for a model and an input. -/
def held (modelId : String) (inputData : Json) (tr : List (CacheOp V)) : Option V :=
  tr.foldl (heldAfter modelId inputData) none

section Served

variable [LinearOrder S] [Zero S] (similarity : List ℚ → List ℚ → S) (threshold : S)

/-- The last call under the most similar stored text. -/
def similar (tr : List (CacheOp V)) (inputData : Json) : Option (Stored V) :=
  (bestMatch threshold (similarity (embed (inputData.dumps false))) (none, 0)
    ((sets tr).map fun p => (p.query, embed p.query))).1.bind fun query => lastFor query tr

/-- What `get_result` answers after a history. -/
def served (tr : List (CacheOp V)) (modelId : String) (inputData : Json) :
    Except Error (Option V) :=
  match (held modelId inputData tr).filter Cacheable.truthy with
  | some result => .ok (some result)
  | none =>
    match similar similarity threshold tr inputData with
    | none => .error unpackNone
    | some p => .ok (if Cacheable.truthy p.result then some p.result else none)

end Served

theorem sets_snoc (tr : List (CacheOp V)) (op : CacheOp V) :
    sets (tr ++ [op]) = sets tr ++ op.stored?.toList := by
  unfold sets
  rw [List.filterMap_append]
  cases h : op.stored? <;> simp [h]

theorem mem_sets {tr : List (CacheOp V)} {p : Stored V} (h : p ∈ sets tr) :
    .setResult p.modelId p.inputData p.result ∈ tr := by
  obtain ⟨op, hop, hp⟩ := List.mem_filterMap.mp h
  cases op with
  | setResult m x v =>
    unfold CacheOp.stored? at hp
    dsimp only at hp
    split at hp
    · obtain rfl := Option.some.inj hp
      exact hop
    · cases hp
  | getEmbedding text => cases hp
  | getResult m x => cases hp
  | invalidateModel m => cases hp

theorem lastFor_of_stored {op : CacheOp V} {p : Stored V} (h : op.stored? = some p) (query : String)
    (tr : List (CacheOp V)) :
    lastFor query (tr ++ [op]) = if p.query = query then some p else lastFor query tr := by
  unfold lastFor
  rw [sets_snoc, h, List.filter_append]
  split_ifs with hq <;> simp [hq]

theorem lastFor_of_none {op : CacheOp V} (h : op.stored? = none) (query : String)
    (tr : List (CacheOp V)) : lastFor query (tr ++ [op]) = lastFor query tr := by
  unfold lastFor
  rw [sets_snoc, h, Option.toList_none, List.append_nil]

theorem mem_sets_of_lastFor {query : String} {tr : List (CacheOp V)} {p : Stored V}
    (h : lastFor query tr = some p) : p ∈ sets tr :=
  (List.mem_filter.mp (List.mem_of_getLast? h)).1

theorem held_snoc (modelId : String) (inputData : Json) (tr : List (CacheOp V)) (op : CacheOp V) :
    held modelId inputData (tr ++ [op]) =
      heldAfter modelId inputData (held modelId inputData tr) op := by
  unfold held
  rw [List.foldl_append]
  rfl

/-! ## Keys -/

theorem toList_keyText (modelId : String) (inputData : Json) (version : String) :
    (ResultCache.keyText modelId inputData version).toList =
      modelId.toList ++ ':' :: inputData.render true ++ (':' :: version.toList) := by
  unfold ResultCache.keyText Json.dumps
  simp

/-- A key of one version tells model and input, whatever colons the model id has. -/
theorem getKey_inj (sha : Digest) {m m' : String} {x x' : Json} :
    ResultCache.getKey sha m x = ResultCache.getKey sha m' x' ↔
      m = m' ∧ x.dumps true = x'.dumps true := by
  constructor
  · intro h
    have htext := congrArg String.toList (sha.injective h)
    rw [toList_keyText, toList_keyText] at htext
    obtain ⟨hm, hx⟩ := Json.Whole.eq_of_append_colon (Json.whole_render true x)
      (Json.whole_render true x') (List.append_cancel_right htext)
    exact ⟨String.toList_inj.mp hm, by unfold Json.dumps; rw [hx]⟩
  · rintro ⟨rfl, hx⟩
    unfold ResultCache.getKey ResultCache.keyText
    rw [hx]

/-! ## Lookups change nothing but hit counts -/

/-- The values of a cache. -/
def values (d : Dict String (CacheEntry V)) (key : String) : Option V :=
  (d.get? key).map CacheEntry.value

omit [Cacheable V] in
theorem values_set (d : Dict String (CacheEntry V)) (key key' : String) (entry : CacheEntry V) :
    values (d.set key entry) key' = if key' = key then some entry.value else values d key' := by
  unfold values
  rw [Dict.get?_set]
  split_ifs <;> rfl

omit [Cacheable V] in
theorem values_hit {d : Dict String (CacheEntry V)} {key : String} {entry : CacheEntry V}
    (h : d.get? key = some entry) : values (d.set key entry.hit) = values d := by
  funext key'
  rw [values_set]
  split_ifs with hk
  · subst hk
    unfold values
    rw [h]
    rfl
  · rfl

/-- Two caches that differ in hit counts and embeddings cached only. -/
structure SameData (c c' : HybridCache V S) : Prop where
  threshold : c'.semanticCache.similarityThreshold = c.semanticCache.similarityThreshold
  embeddings : c'.semanticCache.embeddings = c.semanticCache.embeddings
  semantic : values c'.semanticCache.cache = values c.semanticCache.cache
  result : values c'.resultCache.cache = values c.resultCache.cache
  keysByModel : c'.resultCache.keysByModel = c.resultCache.keysByModel

omit [Cacheable V] in
theorem resultCache_get (sha : Digest) (c : ResultCache V) (m : String) (x : Json) (v : String) :
    (c.get sha m x v).1 = values c.cache (ResultCache.getKey sha m x v) ∧
      values (c.get sha m x v).2.cache = values c.cache ∧
      (c.get sha m x v).2.keysByModel = c.keysByModel := by
  unfold ResultCache.get
  dsimp only
  cases h : c.cache.get? (ResultCache.getKey sha m x v) with
  | none => exact ⟨by rw [values, h]; rfl, rfl, rfl⟩
  | some entry => exact ⟨by rw [values, h]; rfl, values_hit h, rfl⟩

section Lookup

variable [LinearOrder S] [Zero S] (similarity : List ℚ → List ℚ → S)

omit [Cacheable V] in
theorem semanticCache_get_snd (c : SemanticCache V S) (query : String) :
    (c.get similarity query).2.similarityThreshold = c.similarityThreshold ∧
      (c.get similarity query).2.embeddings = c.embeddings ∧
      values (c.get similarity query).2.cache = values c.cache := by
  unfold SemanticCache.get
  dsimp only
  split
  · exact ⟨rfl, rfl, rfl⟩
  · rename_i key score _
    split_ifs
    · exact ⟨rfl, rfl, rfl⟩
    · cases h : c.cache.get? key with
      | none => exact ⟨rfl, rfl, rfl⟩
      | some entry => exact ⟨rfl, rfl, values_hit h⟩

theorem sameData_getResult (sha : Digest) (c : HybridCache V S) (m : String) (x : Json) :
    SameData c (c.getResult similarity sha m x).2 := by
  obtain ⟨_, hr, hk⟩ := resultCache_get sha c.resultCache m x "v1"
  obtain ⟨ht, he, hs⟩ := semanticCache_get_snd similarity c.semanticCache (x.dumps false)
  unfold HybridCache.getResult
  dsimp only
  split
  · exact ⟨rfl, rfl, rfl, hr, hk⟩
  · split
    · exact ⟨ht, he, hs, hr, hk⟩
    · exact ⟨ht, he, hs, hr, hk⟩
    · exact ⟨ht, he, hs, hr, hk⟩

omit [Cacheable V] [LinearOrder S] [Zero S] in
theorem sameData_getEmbedding (sha : Digest) (c : HybridCache V S) (text : String) :
    SameData c (c.getEmbedding sha text).2 := by
  unfold HybridCache.getEmbedding
  split <;> exact ⟨rfl, rfl, rfl, rfl, rfl⟩

end Lookup

/-! ## The result cache and its index -/

section Index

variable (sha : Digest) (c : ResultCache V) (m : String)

/-- Storing a result without a JSON dump raises before anything is stored. -/
theorem resultCache_set_of_error {result : V} {e : Error} (h : Cacheable.dumpSize result = .error e)
    (x : Json) (v : String) : c.set sha m x result v = (.error e, c) := by
  unfold ResultCache.set
  rw [h]

theorem values_resultCache_set {result : V} {size : ℕ} (h : Cacheable.dumpSize result = .ok size)
    (x : Json) (v key : String) : values (c.set sha m x result v).2.cache key =
      if key = ResultCache.getKey sha m x v then some result else values c.cache key := by
  unfold ResultCache.set
  rw [h]
  exact values_set _ _ _ _

/-- Storing lists the key under its model, once. -/
theorem mem_keysByModel_set {result : V} {size : ℕ} (h : Cacheable.dumpSize result = .ok size)
    (x : Json) (v m' key : String) :
    key ∈ (c.set sha m x result v).2.keysByModel.getD m' [] ↔
      (m' = m ∧ key = ResultCache.getKey sha m x v) ∨ key ∈ c.keysByModel.getD m' [] := by
  unfold ResultCache.set
  rw [h]
  dsimp only
  rw [Dict.getD_set]
  by_cases hm : m' = m
  · subst hm
    rw [if_pos rfl]
    by_cases hmem : ResultCache.getKey sha m' x v ∈ c.keysByModel.getD m' []
    · rw [if_pos hmem]
      exact ⟨Or.inr, fun hk => hk.elim (fun hk => hk.2 ▸ hmem) id⟩
    · rw [if_neg hmem, List.mem_append, List.mem_singleton, or_comm]
      exact or_congr_left ⟨fun hk => ⟨rfl, hk⟩, fun hk => hk.2⟩
  · rw [if_neg hm]
    exact ⟨Or.inr, fun hk => hk.elim (fun hk => absurd hk.1 hm) id⟩

omit [Cacheable V] in
theorem values_invalidate (key : String) : values (c.invalidate m).cache key =
    if key ∈ c.keysByModel.getD m [] then none else values c.cache key := by
  unfold values ResultCache.invalidate
  rw [Dict.get?_eraseAll]
  split_ifs <;> rfl

omit [Cacheable V] in
theorem keysByModel_invalidate (m' : String) : (c.invalidate m).keysByModel.getD m' [] =
    if m' = m then [] else c.keysByModel.getD m' [] := by
  unfold ResultCache.invalidate Dict.getD
  dsimp only
  rw [Dict.get?_erase]
  split_ifs <;> rfl

omit c in
theorem setResult_of_error (c : HybridCache V S) {result : V} {e : Error}
    (h : Cacheable.dumpSize result = .error e) (x : Json) :
    (c.setResult sha m x result).2 = c := by
  unfold HybridCache.setResult ResultCache.set
  simp only [h]

omit c in
/-- A result that can be stored goes into both caches. -/
theorem setResult_of_ok (c : HybridCache V S) {result : V} {size : ℕ}
    (h : Cacheable.dumpSize result = .ok size) (x : Json) :
    (c.setResult sha m x result).2.resultCache = (c.resultCache.set sha m x result).2 ∧
      (c.setResult sha m x result).2.semanticCache =
        (c.semanticCache.set sha (x.dumps false) result).2 := by
  unfold HybridCache.setResult ResultCache.set
  simp only [h, and_self]

end Index

/-! ## Reachable caches track their history -/

variable (sha : Digest) (threshold : S)

/-- The cache holds what the history left. -/
structure Tracks (tr : List (CacheOp V)) (c : HybridCache V S) : Prop where
  threshold_eq : c.semanticCache.similarityThreshold = threshold
  embeddings : c.semanticCache.embeddings =
    (sets tr).map fun p => (sha.hexdigest p.query, embed p.query)
  semantic : ∀ query, values c.semanticCache.cache (sha.hexdigest query) =
    (lastFor query tr).map Stored.result
  held : ∀ m x, values c.resultCache.cache (ResultCache.getKey sha m x) = held m x tr
  keyed : ∀ m key, key ∈ c.resultCache.keysByModel.getD m [] → ∃ x, key = ResultCache.getKey sha m x
  listed : ∀ m x, (PyStreamAI.held m x tr).isSome →
    ResultCache.getKey sha m x ∈ c.resultCache.keysByModel.getD m []

variable {sha threshold}

/-- A call that stores and invalidates nothing keeps the cache on track. -/
theorem Tracks.sameData {tr : List (CacheOp V)} {c c' : HybridCache V S}
    (h : Tracks sha threshold tr c) (hs : SameData c c') {op : CacheOp V}
    (hop : op.stored? = none) (hinv : ∀ m, op ≠ .invalidateModel m) :
    Tracks sha threshold (tr ++ [op]) c' := by
  have hheld : ∀ m x, PyStreamAI.held m x (tr ++ [op]) = PyStreamAI.held m x tr := by
    intro m x
    rw [held_snoc]
    unfold heldAfter
    split
    · exact absurd rfl (hinv _)
    · rw [hop]
  refine ⟨hs.threshold.trans h.threshold_eq, ?_, fun query => ?_, fun m x => ?_, fun m key hk => ?_,
    fun m x hx => ?_⟩
  · rw [hs.embeddings, h.embeddings, sets_snoc, hop, Option.toList_none, List.append_nil]
  · rw [hs.semantic, h.semantic, lastFor_of_none hop]
  · rw [hs.result, h.held, hheld]
  · rw [hs.keysByModel] at hk
    exact h.keyed m key hk
  · rw [hheld] at hx
    rw [hs.keysByModel]
    exact h.listed m x hx

/-- What a call that stores `v` leaves for a model and an input. -/
theorem held_setResult (sha : Digest) (tr : List (CacheOp V)) {m : String} {x : Json} {v : V}
    (hstored : (CacheOp.setResult m x v).stored? = some ⟨m, x, v⟩) (m' : String) (x' : Json) :
    held m' x' (tr ++ [.setResult m x v]) =
      if ResultCache.getKey sha m' x' = ResultCache.getKey sha m x then some v
      else held m' x' tr := by
  rw [held_snoc, heldAfter, hstored]
  · refine if_congr ?_ rfl rfl
    rw [getKey_inj]
    exact and_congr eq_comm eq_comm
  · exact fun _ he => by cases he

theorem tracks_setResult {tr : List (CacheOp V)} {c : HybridCache V S}
    (h : Tracks sha threshold tr c) (m : String) (x : Json) (v : V) :
    Tracks sha threshold (tr ++ [.setResult m x v]) (c.setResult sha m x v).2 := by
  cases hsize : Cacheable.dumpSize v with
  | error e =>
    have hstored : (CacheOp.setResult m x v).stored? = none := by
      simp only [CacheOp.stored?, hsize]
    rw [setResult_of_error sha m c hsize]
    exact h.sameData ⟨rfl, rfl, rfl, rfl, rfl⟩ hstored fun _ he => by cases he
  | ok size =>
    have hstored : (CacheOp.setResult m x v).stored? = some ⟨m, x, v⟩ := by
      simp only [CacheOp.stored?, hsize]
    obtain ⟨hresult, hsemantic⟩ := setResult_of_ok sha m c hsize x
    unfold SemanticCache.set at hsemantic
    rw [hsize] at hsemantic
    refine ⟨?_, ?_, fun query => ?_, fun m' x' => ?_, fun m' key hk => ?_, fun m' x' hx => ?_⟩
    · rw [hsemantic]
      exact h.threshold_eq
    · rw [hsemantic, sets_snoc, hstored, Option.toList_some, List.map_append, ← h.embeddings]
      rfl
    · rw [hsemantic]
      dsimp only
      rw [values_set, lastFor_of_stored hstored, h.semantic]
      show (if _ then _ else _) = Option.map _ (if x.dumps false = query then _ else _)
      by_cases hq : x.dumps false = query
      · rw [if_pos (by rw [hq]), if_pos hq]
        rfl
      · rw [if_neg (fun he => hq (sha.injective he).symm), if_neg hq]
    · rw [hresult, values_resultCache_set sha _ m hsize, held_setResult sha tr hstored, h.held]
    · rw [hresult, mem_keysByModel_set sha _ m hsize] at hk
      rcases hk with ⟨rfl, hk⟩ | hk
      · exact ⟨x, hk⟩
      · exact h.keyed m' key hk
    · rw [hresult, mem_keysByModel_set sha _ m hsize]
      rw [held_setResult sha tr hstored] at hx
      split_ifs at hx with hkey
      · exact Or.inl ⟨((getKey_inj sha).mp hkey).1, hkey⟩
      · exact Or.inr (h.listed m' x' hx)

theorem tracks_invalidateModel {tr : List (CacheOp V)} {c : HybridCache V S}
    (h : Tracks sha threshold tr c) (m : String) :
    Tracks sha threshold (tr ++ [.invalidateModel m]) (c.invalidateModel m) := by
  have hstored : (CacheOp.invalidateModel m : CacheOp V).stored? = none := rfl
  have hheld : ∀ m' x', PyStreamAI.held m' x' (tr ++ [.invalidateModel m]) =
      if m = m' then none else PyStreamAI.held m' x' tr := fun m' x' => held_snoc m' x' tr _
  have hvalues : ∀ key, values (c.invalidateModel m).resultCache.cache key =
      if key ∈ c.resultCache.keysByModel.getD m [] then none
      else values c.resultCache.cache key := values_invalidate c.resultCache m
  have hkeys : ∀ m', (c.invalidateModel m).resultCache.keysByModel.getD m' [] =
      if m' = m then [] else c.resultCache.keysByModel.getD m' [] :=
    keysByModel_invalidate c.resultCache m
  refine ⟨h.threshold_eq, ?_, fun query => ?_, fun m' x' => ?_, fun m' key hk => ?_,
    fun m' x' hx => ?_⟩
  · rw [sets_snoc, hstored, Option.toList_none, List.append_nil]
    exact h.embeddings
  · rw [lastFor_of_none hstored]
    exact h.semantic query
  · rw [hvalues, hheld, h.held]
    by_cases hm : m = m'
    · subst hm
      rw [if_pos rfl]
      cases hx : PyStreamAI.held m x' tr with
      | none => split_ifs <;> rfl
      | some v => rw [if_pos (h.listed m x' (by rw [hx]; rfl))]
    · rw [if_neg hm, if_neg]
      intro hmem
      obtain ⟨y, hy⟩ := h.keyed m _ hmem
      exact hm ((getKey_inj sha).mp hy).1.symm
  · rw [hkeys] at hk
    split_ifs at hk with hm
    · cases hk
    · exact h.keyed m' key hk
  · rw [hheld] at hx
    split_ifs at hx with hm
    · cases hx
    · rw [hkeys, if_neg (Ne.symm hm)]
      exact h.listed m' x' hx

section Runs

variable [LinearOrder S] [Zero S] (similarity : List ℚ → List ℚ → S)

theorem Tracks.step {tr : List (CacheOp V)} {c : HybridCache V S} (h : Tracks sha threshold tr c)
    (op : CacheOp V) : Tracks sha threshold (tr ++ [op]) (c.step similarity sha op) := by
  cases op with
  | getEmbedding text =>
    exact h.sameData (sameData_getEmbedding sha c text) rfl fun _ he => by cases he
  | getResult m x =>
    exact h.sameData (sameData_getResult similarity sha c m x) rfl fun _ he => by cases he
  | setResult m x v => exact tracks_setResult h m x v
  | invalidateModel m => exact tracks_invalidateModel h m

variable (sha threshold)

/-- Every reachable cache tracks its history. -/
theorem tracks_run (tr : List (CacheOp V)) :
    Tracks sha threshold tr (run (HybridCache.step similarity sha) (.init threshold) tr) :=
  run_history
    { threshold_eq := rfl
      embeddings := rfl
      semantic := fun _ => rfl
      held := fun _ _ => rfl
      keyed := fun _ _ h => by cases h
      listed := fun _ _ h => by cases h }
    (fun _ _ h op => h.step similarity op) tr

variable {sha threshold}

/-- What the semantic cache finds. -/
theorem Tracks.semantic_get {tr : List (CacheOp V)} {c : HybridCache V S}
    (h : Tracks sha threshold tr c) (x : Json) :
    ((c.semanticCache.get similarity (x.dumps false)).1.map fun found => found.map Prod.fst) =
      .ok ((similar similarity threshold tr x).map Stored.result) := by
  set best := bestMatch threshold (similarity (embed (x.dumps false))) ((none : Option String), 0)
    ((sets tr).map fun p => (p.query, embed p.query)) with hbest
  have hmatch : bestMatch c.semanticCache.similarityThreshold (similarity (embed (x.dumps false)))
      (none, 0) c.semanticCache.embeddings = (best.1.map sha.hexdigest, best.2) := by
    rw [h.threshold_eq, h.embeddings, hbest, ← bestMatch_map, List.map_map]
    rfl
  unfold SemanticCache.get similar
  dsimp only
  rw [hmatch, ← hbest]
  obtain ⟨_ | query, score⟩ := best
  · rfl
  · -- the query was stored, so there is a last result under it
    have hmem : query ∈ ((sets tr).map fun p => (p.query, embed p.query)).map Prod.fst := by
      rcases bestMatch_mem (congrArg Prod.fst hbest.symm) with hnone | hmem
      · cases hnone
      · exact hmem
    rw [List.map_map] at hmem
    obtain ⟨p, hp, hpq⟩ := List.mem_map.mp hmem
    obtain ⟨last, hlast⟩ : ∃ last, lastFor query tr = some last := by
      rw [← Option.isSome_iff_exists, lastFor, List.getLast?_isSome]
      simp only [ne_eq, List.filter_eq_nil_iff, not_forall]
      exact ⟨p, hp, by simpa using hpq⟩
    have hval := h.semantic query
    rw [hlast] at hval
    dsimp only [Option.map_some, Option.bind_some]
    rw [if_neg (sha.ne_empty query), hlast]
    cases hget : c.semanticCache.cache.get? (sha.hexdigest query) with
    | none =>
      rw [values, hget] at hval
      cases hval
    | some entry =>
      rw [values, hget] at hval
      dsimp only [Except.map, Option.map_some]
      exact congrArg Except.ok hval

/-- **Refinement.** A cache on track answers what its history serves. -/
theorem Tracks.getResult_eq_served {tr : List (CacheOp V)} {c : HybridCache V S}
    (h : Tracks sha threshold tr c) (m : String) (x : Json) :
    (c.getResult similarity sha m x).1 = served similarity threshold tr m x := by
  obtain ⟨hget, -, -⟩ := resultCache_get sha c.resultCache m x "v1"
  have hsem := h.semantic_get similarity x
  unfold HybridCache.getResult served
  dsimp only
  rw [hget, h.held]
  cases (PyStreamAI.held m x tr).filter Cacheable.truthy with
  | some v => rfl
  | none =>
    dsimp only
    cases hfound : (c.semanticCache.get similarity (x.dumps false)).1 with
    | error e =>
      rw [hfound] at hsem
      cases hsem
    | ok found =>
      rw [hfound] at hsem
      cases hs : similar similarity threshold tr x with
      | none =>
        rw [hs] at hsem
        cases found with
        | none => rfl
        | some q => cases hsem
      | some p =>
        rw [hs] at hsem
        cases found with
        | none => cases hsem
        | some q =>
          obtain ⟨v, score⟩ := q
          obtain rfl : v = p.result := by
            simpa [Except.map] using hsem
          rfl

end Runs

end PyStreamAI
