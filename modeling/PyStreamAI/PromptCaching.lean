import Mathlib.Algebra.Order.BigOperators.Group.List
import PyStreamAI.PagedAttention
import PyStreamAI.SpeculativeDecoding

/-!
# Prompt caching

The cache key of a prompt is its first 100 characters. A shorter prompt is its own key, so what is
found under a shorter key is always its own; a key of 100 characters answers for every prompt that
begins with it (`ownEntries_iff`). The engine reports a hit whenever the key is there
(`ownHits_iff`).
-/

open Py Machine

namespace PyStreamAI

/-- What the cache holds for a prompt. -/
structure CachedPrompt (α : Type) where
  embeddings : Dict String α
  tokens : ℤ
  cachedAt : ℤ
  deriving DecidableEq

/-- Prompt caching - reuse computations for repeated prefixes. -/
structure PromptCache (α : Type) where
  maxCacheTokens : ℤ := 10000
  cache : Dict String (CachedPrompt α) := ∅
  hits : ℕ := 0
  misses : ℕ := 0
  deriving DecidableEq

namespace PromptCache

variable {α : Type}

/-- Generate cache key from prompt: `prompt[:100]`. -/
def getCacheKey (prompt : String) : String := String.ofList (prompt.toList.take 100)

/-- Lookup cached computation. -/
def lookup (c : PromptCache α) (prompt : String) : Option (CachedPrompt α) × PromptCache α :=
  match c.cache.get? (getCacheKey prompt) with
  | some entry => (some entry, { c with hits := c.hits + 1 })
  | none => (none, { c with misses := c.misses + 1 })

/-- Store computation in cache. -/
def store (c : PromptCache α) (prompt : String) (embeddings : Dict String α) (tokens now : ℤ) :
    PromptCache α :=
  let cache := if 1000000 < c.cache.len * c.maxCacheTokens then c.cache.lastItems 100 else c.cache
  { c with cache := cache.set (getCacheKey prompt) { embeddings, tokens, cachedAt := now } }

/-- A call on the cache. -/
inductive Op (α : Type)
  | lookup (prompt : String)
  | store (prompt : String) (embeddings : Dict String α) (tokens now : ℤ)

/-- The cache after a call. -/
def step (c : PromptCache α) : Op α → PromptCache α
  | .lookup prompt => (c.lookup prompt).2
  | .store prompt embeddings tokens now => c.store prompt embeddings tokens now

/-- The prompt and the entry of a call of `store`. -/
def Op.stored? : Op α → Option (String × CachedPrompt α)
  | .lookup _ => none
  | .store prompt embeddings tokens now => some (prompt, { embeddings, tokens, cachedAt := now })

/-- The entry of the latest call of `store` whose prompt passes a test. -/
def latest (test : String → Bool) (tr : List (Op α)) : Option (CachedPrompt α) :=
  (((tr.filterMap Op.stored?).filter fun p => test p.1).getLast?).map Prod.snd

/-- The entry of the latest call of `store` for exactly this prompt. -/
def lastStored (prompt : String) (tr : List (Op α)) : Option (CachedPrompt α) :=
  latest (fun p => decide (p = prompt)) tr

/-! ## Keys -/

theorem length_getCacheKey (prompt : String) :
    (getCacheKey prompt).length = min 100 prompt.length := by
  unfold getCacheKey
  rw [String.length_ofList, List.length_take, String.length_toList]

theorem getCacheKey_of_le {prompt : String} (h : prompt.length ≤ 100) :
    getCacheKey prompt = prompt := by
  unfold getCacheKey
  rw [List.take_of_length_le (by rwa [String.length_toList]), String.ofList_toList]

/-- A key that is shorter than 100 characters is the key of one prompt only. -/
theorem getCacheKey_eq_iff {prompt key : String} (h : key.length < 100) :
    getCacheKey prompt = key ↔ prompt = key := by
  constructor
  · rintro rfl
    rw [length_getCacheKey] at h
    exact (getCacheKey_of_le (by omega)).symm
  · rintro rfl
    exact getCacheKey_of_le (Nat.le_of_lt h)

/-- A key of 100 characters is the key of a prompt that is not among the given ones. -/
theorem exists_fresh {key : String} (h : key.length = 100) (prompts : List String) :
    ∃ prompt, getCacheKey prompt = key ∧ prompt ∉ prompts := by
  -- one that is longer than all of them together
  let n := (prompts.map String.length).sum + 1
  refine ⟨key ++ String.ofList (List.replicate n 'x'), ?_, fun hmem => ?_⟩
  · unfold getCacheKey
    rw [String.toList_append, List.take_left' (by rw [String.length_toList, h]),
      String.ofList_toList]
  · have hle := List.single_le_sum (fun _ _ => Nat.zero_le _) _
      (List.mem_map_of_mem (f := String.length) hmem)
    rw [String.length_append, String.length_ofList, List.length_replicate] at hle
    omega

/-! ## What the cache holds -/

theorem lookup_fst (c : PromptCache α) (prompt : String) :
    (c.lookup prompt).1 = c.cache.get? (getCacheKey prompt) := by
  unfold lookup
  cases c.cache.get? (getCacheKey prompt) <;> rfl

theorem cache_lookup (c : PromptCache α) (prompt : String) :
    (c.lookup prompt).2.cache = c.cache := by
  unfold lookup
  cases c.cache.get? (getCacheKey prompt) <;> rfl

/-- After a `store` every key holds the new entry or what it held before. -/
theorem get?_store {c : PromptCache α} {prompt key : String} {embeddings : Dict String α}
    {tokens now : ℤ} {entry : CachedPrompt α}
    (h : (c.store prompt embeddings tokens now).cache.get? key = some entry) :
    if key = getCacheKey prompt then entry = { embeddings, tokens, cachedAt := now }
    else c.cache.get? key = some entry := by
  unfold store at h
  dsimp only at h
  rw [Dict.get?_set] at h
  split_ifs at h ⊢
  · exact (Option.some.inj h).symm
  · exact Dict.get?_of_lastItems h
  · exact h

/-! ## Histories of the cache -/

theorem latest_lookup (test : String → Bool) (tr : List (Op α)) (prompt : String) :
    latest test (tr ++ [.lookup prompt]) = latest test tr := by
  unfold latest
  rw [List.filterMap_append]
  exact congrArg (fun l => ((List.filter _ l).getLast?).map Prod.snd) (List.append_nil _)

theorem latest_store (test : String → Bool) (tr : List (Op α)) (prompt : String)
    (embeddings : Dict String α) (tokens now : ℤ) :
    latest test (tr ++ [.store prompt embeddings tokens now]) =
      if test prompt then some { embeddings, tokens, cachedAt := now } else latest test tr := by
  unfold latest
  rw [List.filterMap_append, List.filter_append]
  split_ifs with h <;> simp [Op.stored?, h]

theorem exists_of_latest {test : String → Bool} {tr : List (Op α)} {entry : CachedPrompt α}
    (h : latest test tr = some entry) :
    ∃ prompt ∈ (tr.filterMap Op.stored?).map Prod.fst, test prompt = true := by
  obtain ⟨p, hp, -⟩ := Option.map_eq_some_iff.mp h
  obtain ⟨hmem, htest⟩ := List.mem_filter.mp (List.mem_of_getLast? hp)
  exact ⟨p.1, List.mem_map_of_mem hmem, htest⟩

/-- A key that is cached holds the entry of the latest call of `store` with that key. -/
theorem latest_of_get? {maxCacheTokens : ℤ} {tr : List (Op α)} {key : String}
    {entry : CachedPrompt α}
    (h : (run step { maxCacheTokens } tr).cache.get? key = some entry) :
    latest (fun p => decide (getCacheKey p = key)) tr = some entry := by
  induction tr using List.reverseRecOn with
  | nil => cases h
  | append_singleton tr op ih =>
    rw [run_snoc] at h
    cases op with
    | lookup prompt =>
      rw [latest_lookup]
      exact ih ((cache_lookup _ prompt) ▸ h)
    | store prompt embeddings tokens now =>
      have hkept := get?_store h
      rw [latest_store]
      split_ifs at hkept with hkey
      · rw [if_pos (decide_eq_true hkey.symm), hkept]
      · rw [if_neg (by simpa using Ne.symm hkey)]
        exact ih hkept

/-- Every lookup answers with the entry of the latest call of `store` for exactly its prompt. -/
def OwnEntries (c : PromptCache α) (tr : List (Op α)) : Prop :=
  ∀ prompt entry, (c.lookup prompt).1 = some entry → lastStored prompt tr = some entry

/-- Every key that is cached is shorter than 100 characters. -/
def ShortKeys (c : PromptCache α) : Prop := ∀ key ∈ c.cache.keys, key.length < 100

theorem ownEntries_iff (maxCacheTokens : ℤ) (tr : List (Op α)) :
    (run step { maxCacheTokens } tr).OwnEntries tr ↔
      (run step { maxCacheTokens } tr).ShortKeys := by
  constructor
  · intro hown key hkey
    obtain ⟨entry, hentry⟩ := Dict.mem_keys_iff.mp hkey
    obtain ⟨stored, -, hstored⟩ := exists_of_latest (latest_of_get? hentry)
    have hlen := length_getCacheKey stored
    rw [of_decide_eq_true hstored] at hlen
    by_contra hlong
    -- a prompt that was never stored is answered
    obtain ⟨prompt, rfl, hfresh⟩ :=
      exists_fresh (by omega : key.length = 100) ((tr.filterMap Op.stored?).map Prod.fst)
    have hlast := hown prompt entry ((lookup_fst _ prompt).trans hentry)
    obtain ⟨prompt', hmem, heq⟩ := exists_of_latest hlast
    rw [of_decide_eq_true heq] at hmem
    exact hfresh hmem
  · intro hshort prompt entry hentry
    rw [lookup_fst] at hentry
    have hlatest := latest_of_get? hentry
    have hlen := hshort _ (Dict.mem_keys_iff.mpr ⟨entry, hentry⟩)
    have hself := (getCacheKey_eq_iff hlen).mp rfl
    unfold lastStored
    rw [← hlatest]
    congr
    funext p
    rw [decide_eq_decide, getCacheKey_eq_iff hlen, ← hself]

end PromptCache

/-! ## The engine -/

/-- Combine LLM optimizations for maximum speedup. -/
structure LLMOptimizationEngine (α : Type) where
  speculativeDecoder : Option SpeculativeDecoder := none
  promptCache : PromptCache α := {}
  pagedAttention : PagedAttention := PagedAttention.init 16 100
  totalLatencySavedMs : ℚ := 0

/-- The metrics `generate` returns. -/
structure GenerationMetrics where
  cacheHit : Bool := false
  speculativeSpeedup : ℚ := 1
  memorySaved : ℤ := 0
  latencyMs : ℚ := 0
  deriving DecidableEq

namespace LLMOptimizationEngine

open PromptCache

variable {α : Type}

/-- `LLMOptimizationEngine(model)`. -/
def init (α : Type) : LLMOptimizationEngine α := {}

/-- Enable speculative decoding. -/
def enableSpeculativeDecoding (e : LLMOptimizationEngine α)
    (config : Option SpeculativeDecodingConfig) : LLMOptimizationEngine α :=
  { e with speculativeDecoder := some { config := config.getD {} } }

section Generate

-- `model.generate(prompt, max_tokens)`, which may raise
variable (model : String → ℤ → Except Error String)

/-- The output for a prompt that is not cached, with the speedup to report. -/
def complete (e : LLMOptimizationEngine α) (prompt : String) (maxTokens : ℤ) :
    Res (LLMOptimizationEngine α) (String × ℚ) :=
  match e.speculativeDecoder with
  | some decoder =>
    let (output, decoder) := decoder.generate prompt maxTokens
    (.ok (output, decoder.getStats.acceptanceRate / 100),
      { e with speculativeDecoder := some decoder })
  | none => ((model prompt maxTokens).map fun output => (output, 1), e)

/-- Generate with all optimizations enabled. -/
def generate (e : LLMOptimizationEngine α) (prompt : String) (maxTokens now : ℤ) :
    Res (LLMOptimizationEngine α) (String × GenerationMetrics) :=
  let (cached, promptCache) := e.promptCache.lookup prompt
  let e := { e with promptCache }
  match cached with
  | some _ => (.ok (prompt ++ "cached_response", { cacheHit := true }), e)
  | none =>
    match e.complete model prompt maxTokens with
    | (.error error, e) => (.error error, e)
    | (.ok (output, speculativeSpeedup), e) =>
      let e := { e with promptCache := e.promptCache.store prompt ∅ maxTokens now }
      match e.pagedAttention.getMemoryUsage with
      | .error error => (.error error, e)
      | .ok memoryStats =>
        let metrics : GenerationMetrics :=
          { speculativeSpeedup, memorySaved := memoryStats.totalTokensCached }
        let cacheReduction : ℚ := if metrics.cacheHit then 1 / 10 else 0
        let speculativeReduction := (1 - metrics.speculativeSpeedup) * (3 / 10)
        let estimatedLatencySaved := 100 * (cacheReduction + speculativeReduction)
        (.ok (output, { metrics with latencyMs := estimatedLatencySaved }),
          { e with totalLatencySavedMs := e.totalLatencySavedMs + estimatedLatencySaved })

/-- A call on the engine. -/
inductive Op
  | generate (prompt : String) (maxTokens now : ℤ)
  | enableSpeculativeDecoding (config : Option SpeculativeDecodingConfig)

/-- The engine after a call, whether or not the call raised. -/
def step (e : LLMOptimizationEngine α) : Op → LLMOptimizationEngine α
  | .generate prompt maxTokens now => (e.generate model prompt maxTokens now).2
  | .enableSpeculativeDecoding config => e.enableSpeculativeDecoding config

/-- The prompt of a call that computes an output. -/
def emitGenerated (e : LLMOptimizationEngine α) : Op → List String
  | .generate prompt maxTokens _ =>
    match (e.promptCache.lookup prompt).1, (e.complete model prompt maxTokens).1 with
    | none, .ok _ => [prompt]
    | _, _ => []
  | .enableSpeculativeDecoding _ => []

/-- The prompts that an output was computed for in a history. -/
def generated (e : LLMOptimizationEngine α) (tr : List Op) : List String :=
  log (step model) (emitGenerated model) e tr

/-- A call of `generate` reports a cache hit. -/
def Reports (e : LLMOptimizationEngine α) (prompt : String) (maxTokens now : ℤ) : Prop :=
  ∃ output metrics, (e.generate model prompt maxTokens now).1 = .ok (output, metrics) ∧
    metrics.cacheHit = true

/-- Every hit that `generate` can report next is for a prompt in the list. -/
def OwnHits (e : LLMOptimizationEngine α) (prompts : List String) : Prop :=
  ∀ prompt maxTokens now, e.Reports model prompt maxTokens now → prompt ∈ prompts

variable {model} {e : LLMOptimizationEngine α} {prompt key : String} {maxTokens now : ℤ}

theorem complete_promptCache (model : String → ℤ → Except Error String)
    (e : LLMOptimizationEngine α) (prompt : String) (maxTokens : ℤ) (c : PromptCache α) :
    (({ e with promptCache := c }).complete model prompt maxTokens).1 =
        (e.complete model prompt maxTokens).1 ∧
      (({ e with promptCache := c }).complete model prompt maxTokens).2.promptCache = c := by
  unfold complete
  cases e.speculativeDecoder with
  | none => exact ⟨rfl, rfl⟩
  | some decoder => exact ⟨rfl, rfl⟩

/-- A cached key is a hit. -/
theorem generate_of_cached {entry : CachedPrompt α}
    (h : (e.promptCache.lookup prompt).1 = some entry) :
    e.generate model prompt maxTokens now =
      (.ok (prompt ++ "cached_response", { cacheHit := true }),
        { e with promptCache := (e.promptCache.lookup prompt).2 }) := by
  unfold generate
  dsimp only
  rw [h]

/-- What a miss reports and leaves in the cache. -/
theorem generate_of_miss (now : ℤ) (h : (e.promptCache.lookup prompt).1 = none) :
    (∀ output metrics, (e.generate model prompt maxTokens now).1 = .ok (output, metrics) →
      metrics.cacheHit = false) ∧
    ((e.generate model prompt maxTokens now).2.promptCache = (e.promptCache.lookup prompt).2 ∨
      (∃ out, (e.complete model prompt maxTokens).1 = .ok out) ∧
        (e.generate model prompt maxTokens now).2.promptCache =
          (e.promptCache.lookup prompt).2.store prompt ∅ maxTokens now) := by
  obtain ⟨hresult, hcache⟩ :=
    complete_promptCache model e prompt maxTokens (e.promptCache.lookup prompt).2
  unfold generate
  dsimp only
  rw [h]
  dsimp only
  cases hc : ({ e with promptCache := (e.promptCache.lookup prompt).2 }).complete model prompt
      maxTokens with
  | mk result e' =>
    rw [hc] at hresult hcache
    dsimp only at hresult hcache ⊢
    cases result with
    | error error =>
      refine ⟨fun output metrics hok => ?_, Or.inl hcache⟩
      cases hok
    | ok out =>
      have hstored : e'.promptCache.store prompt ∅ maxTokens now =
          (e.promptCache.lookup prompt).2.store prompt ∅ maxTokens now := by rw [hcache]
      dsimp only
      cases e'.pagedAttention.getMemoryUsage with
      | error error =>
        refine ⟨fun output metrics hok => ?_, Or.inr ⟨⟨out, hresult.symm⟩, hstored⟩⟩
        cases hok
      | ok memoryStats =>
        refine ⟨fun output metrics hok => ?_, Or.inr ⟨⟨out, hresult.symm⟩, hstored⟩⟩
        obtain ⟨-, rfl⟩ := Prod.mk.inj (Except.ok.inj hok)
        rfl

/-- `generate` reports a hit exactly for the prompts whose key is cached. -/
theorem reports_iff :
    e.Reports model prompt maxTokens now ↔ getCacheKey prompt ∈ e.promptCache.cache.keys := by
  rw [Dict.mem_keys_iff, ← lookup_fst]
  constructor
  · rintro ⟨output, metrics, hok, hhit⟩
    cases h : (e.promptCache.lookup prompt).1 with
    | none =>
      rw [(generate_of_miss now h).1 output metrics hok] at hhit
      cases hhit
    | some entry => exact ⟨entry, rfl⟩
  · rintro ⟨entry, h⟩
    exact ⟨_, _, congrArg Prod.fst (generate_of_cached h), rfl⟩

theorem mem_keys_store {c : PromptCache α} {embeddings : Dict String α} {tokens : ℤ}
    (h : key ∈ (c.store prompt embeddings tokens now).cache.keys) :
    key = getCacheKey prompt ∨ key ∈ c.cache.keys := by
  obtain ⟨entry, hentry⟩ := Dict.mem_keys_iff.mp h
  have hkept := get?_store hentry
  split_ifs at hkept with hkey
  · exact Or.inl hkey
  · exact Or.inr (Dict.mem_keys_iff.mpr ⟨entry, hkept⟩)

/-- A key that is cached after a call was cached before, or is that of the prompt it computed an
output for. -/
theorem mem_keys_step {op : Op} (h : key ∈ (e.step model op).promptCache.cache.keys) :
    key ∈ e.promptCache.cache.keys ∨
      ∃ prompt ∈ emitGenerated model e op, getCacheKey prompt = key := by
  cases op with
  | enableSpeculativeDecoding config => exact Or.inl h
  | generate prompt maxTokens now =>
    have hlookup := cache_lookup e.promptCache prompt
    change key ∈ (e.generate model prompt maxTokens now).2.promptCache.cache.keys at h
    cases hl : (e.promptCache.lookup prompt).1 with
    | some entry =>
      rw [generate_of_cached hl] at h
      exact Or.inl (hlookup ▸ h)
    | none =>
      rcases (generate_of_miss now hl).2 with hcache | ⟨⟨out, hout⟩, hcache⟩
      · rw [hcache, hlookup] at h
        exact Or.inl h
      · rw [hcache] at h
        rcases mem_keys_store h with rfl | hold
        · refine Or.inr ⟨prompt, ?_, rfl⟩
          unfold emitGenerated
          dsimp only
          rw [hl, hout]
          exact List.mem_singleton_self prompt
        · exact Or.inl (hlookup ▸ hold)

/-- Every key that is cached is that of a prompt an output was computed for. -/
theorem exists_generated {tr : List Op}
    (h : key ∈ (run (step model) (init α) tr).promptCache.cache.keys) :
    ∃ prompt ∈ generated model (init α) tr, getCacheKey prompt = key := by
  induction tr using List.reverseRecOn generalizing key with
  | nil => cases h
  | append_singleton tr op ih =>
    rw [run_snoc] at h
    unfold generated
    rw [log_snoc]
    rcases mem_keys_step h with hold | ⟨prompt, hmem, hkey⟩
    · obtain ⟨prompt, hmem, hkey⟩ := ih hold
      exact ⟨prompt, List.mem_append_left _ hmem, hkey⟩
    · exact ⟨prompt, List.mem_append_right _ hmem, hkey⟩

theorem ownHits_iff (model : String → ℤ → Except Error String) (tr : List Op) :
    (run (step model) (init α) tr).OwnHits model (generated model (init α) tr) ↔
      (run (step model) (init α) tr).promptCache.ShortKeys := by
  constructor
  · intro hown key hkey
    obtain ⟨computed, -, rfl⟩ := exists_generated hkey
    have hlen := length_getCacheKey computed
    by_contra hlong
    -- a prompt that was never given is a hit
    obtain ⟨prompt, heq, hfresh⟩ :=
      exists_fresh (by omega : (getCacheKey computed).length = 100) (generated model (init α) tr)
    rw [← heq] at hkey
    exact hfresh (hown prompt 0 0 (reports_iff.mpr hkey))
  · intro hshort prompt maxTokens now hreports
    have hkey := reports_iff.mp hreports
    obtain ⟨computed, hmem, heq⟩ := exists_generated hkey
    have hshort := hshort _ hkey
    have hself := (getCacheKey_eq_iff hshort).mp rfl
    rw [(getCacheKey_eq_iff hshort).mp heq, ← hself] at hmem
    exact hmem

end Generate

end LLMOptimizationEngine

/-! ## Own computations -/

/-- **Own computations.** After every history of calls on a cache, every lookup answers with the
entry stored last for its prompt exactly when every cached key is shorter than 100 characters. After
every history of calls on an engine, only prompts that an output was computed for are reported as
hits exactly under the same condition on its cache. -/
theorem ownComputations_iff {α : Type} (maxCacheTokens : ℤ) (tr : List (PromptCache.Op α))
    (model : String → ℤ → Except Error String) (calls : List LLMOptimizationEngine.Op) :
    ((run PromptCache.step { maxCacheTokens } tr).OwnEntries tr ↔
      (run PromptCache.step { maxCacheTokens } tr).ShortKeys) ∧
    ((run (LLMOptimizationEngine.step model) (.init α) calls).OwnHits model
        (LLMOptimizationEngine.generated model (.init α) calls) ↔
      (run (LLMOptimizationEngine.step model) (.init α) calls).promptCache.ShortKeys) :=
  ⟨PromptCache.ownEntries_iff maxCacheTokens tr, LLMOptimizationEngine.ownHits_iff model calls⟩

/-- A question behind a system prompt of 100 characters. -/
def question (text : String) : String := String.ofList (List.replicate 100 's') ++ text

theorem getCacheKey_question (text : String) :
    PromptCache.getCacheKey (question text) = question "" := by
  have hlength : (String.ofList (List.replicate 100 's')).toList.length = 100 := by simp
  unfold PromptCache.getCacheKey question
  rw [String.toList_append, List.take_left' hlength, String.ofList_toList, String.append_empty]

/-- The second question is answered with what was stored for the first, and the engine reports a
hit for it. -/
theorem otherQuestion_answered :
    let tr : List (PromptCache.Op Unit) := [.store (question "A") ∅ 5 0]
    let c := run PromptCache.step {} tr
    let model := fun prompt (_ : ℤ) => (.ok (prompt ++ "!") : Except Error String)
    let calls : List LLMOptimizationEngine.Op := [.generate (question "A") 5 0]
    let e := run (LLMOptimizationEngine.step model) (.init Unit) calls
    (c.lookup (question "B")).1 = some ⟨∅, 5, 0⟩ ∧ ¬ c.OwnEntries tr ∧
      (e.generate model (question "B") 5 1).1 =
        .ok (question "B" ++ "cached_response", { cacheHit := true }) ∧
      ¬ e.OwnHits model (LLMOptimizationEngine.generated model (.init Unit) calls) := by
  intro tr c model calls e
  have hlookup : ∀ c' : PromptCache Unit,
      c'.cache = Dict.set ∅ (PromptCache.getCacheKey (question "A")) ⟨∅, 5, 0⟩ →
      (c'.lookup (question "B")).1 = some ⟨∅, 5, 0⟩ := by
    intro c' hcache
    rw [PromptCache.lookup_fst, hcache, getCacheKey_question, getCacheKey_question, Dict.get?_set,
      if_pos rfl]
  have hentry : (c.lookup (question "B")).1 = some ⟨∅, 5, 0⟩ := hlookup c rfl
  have hnone : PromptCache.lastStored (question "B") tr = none := by decide +kernel
  have hhit : (e.generate model (question "B") 5 1).1 =
      .ok (question "B" ++ "cached_response", { cacheHit := true }) := by
    rw [LLMOptimizationEngine.generate_of_cached (hlookup e.promptCache rfl)]
  have hcomputed : question "B" ∉ LLMOptimizationEngine.generated model (.init Unit) calls := by
    decide +kernel
  refine ⟨hentry, fun hown => ?_, hhit, fun hown => ?_⟩
  · have hlast := hown _ _ hentry
    rw [hnone] at hlast
    cases hlast
  · exact hcomputed (hown _ 5 1 ⟨_, _, hhit, rfl⟩)

end PyStreamAI
