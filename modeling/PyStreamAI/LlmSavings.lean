import PyStreamAI.PromptCaching

/-!
# What the LLM engine saves

The decoder accepts every draft, so its acceptance rate is 100% once it has drafted a token
(`speculation_run`). The engine reports as saved 30 ms times what the rate leaves to 100%. So it
saves nothing for what it generates, nor for a cache hit, and 30 ms for an output that is the prompt
itself (`savings_run`).
-/

open Py Machine

namespace PyStreamAI

namespace SpeculativeDecoder

/-! ## The decoder -/

/-- The rounds `generate` makes: drafts of `n` tokens until there are `maxTokens`. -/
def draftRounds (n maxTokens : ℤ) : ℕ := (maxTokens.toNat + n.toNat - 1) / n.toNat

/-- The text of `k` drafts. -/
def drafts (n : ℤ) (k : ℕ) : String := String.join (List.replicate k (draftTokens "" n))

theorem draftRounds_of_done {n maxTokens : ℤ} (h : maxTokens ≤ 0 ∨ n ≤ 0) :
    draftRounds n maxTokens = 0 := by
  unfold draftRounds
  rcases Nat.eq_zero_or_pos n.toNat with hn | hn
  · rw [hn, Nat.div_zero]
  · have hmax : maxTokens.toNat = 0 := by omega
    rw [hmax, Nat.zero_add]
    exact Nat.div_eq_of_lt (by omega)

theorem draftRounds_succ {n maxTokens : ℤ} (hn : 0 < n) (hmax : 0 < maxTokens) :
    draftRounds n maxTokens = draftRounds n (maxTokens - n) + 1 := by
  unfold draftRounds
  have hpos : 0 < n.toNat := by omega
  have hsplit : maxTokens.toNat + n.toNat - 1 = maxTokens.toNat - 1 + n.toNat := by omega
  rw [hsplit, Nat.add_div_right _ hpos]
  congr 1
  by_cases hle : n ≤ maxTokens
  · congr 1
    omega
  · have hzero : (maxTokens - n).toNat = 0 := by omega
    rw [hzero, Nat.div_eq_of_lt (by omega), Nat.div_eq_of_lt (by omega)]

/-- The drafts are enough, and the last one begins before they are. -/
theorem draftRounds_spec {n maxTokens : ℤ} (hn : 0 < n) (hmax : 0 < maxTokens) :
    maxTokens ≤ draftRounds n maxTokens * n ∧ draftRounds n maxTokens * n < maxTokens + n := by
  have hpos : 0 < n.toNat := by omega
  have hdiv := Nat.div_add_mod (maxTokens.toNat + n.toNat - 1) n.toNat
  have hmod := Nat.mod_lt (maxTokens.toNat + n.toNat - 1) hpos
  have hcast : ((draftRounds n maxTokens * n.toNat : ℕ) : ℤ) = draftRounds n maxTokens * n := by
    rw [Nat.cast_mul, Int.toNat_of_nonneg hn.le]
  rw [← hcast]
  rw [mul_comm] at hdiv
  unfold draftRounds
  omega

variable {d : SpeculativeDecoder}

theorem generateLoop_eq {maxTokens : ℤ} {rounds : ℕ} {output : String} {tokensGenerated : ℕ}
    (h : (maxTokens - tokensGenerated).toNat ≤ rounds) :
    generateLoop maxTokens rounds output tokensGenerated d =
      (output ++ drafts d.config.numDraftTokens
          (draftRounds d.config.numDraftTokens (maxTokens - tokensGenerated)),
        { d with
          verifiedTokens := d.verifiedTokens +
            draftRounds d.config.numDraftTokens (maxTokens - tokensGenerated) *
              (d.config.numDraftTokens.toNat + 1) }) := by
  induction rounds generalizing output tokensGenerated d with
  | zero =>
    rw [generateLoop_stop (Or.inl (by omega)), draftRounds_of_done (Or.inl (by omega))]
    simp [drafts]
  | succ rounds ih =>
    by_cases hgo : (tokensGenerated : ℤ) < maxTokens ∧ 0 < d.config.numDraftTokens
    · obtain ⟨hmore, hdraft⟩ := hgo
      have hrest : maxTokens - ((tokensGenerated + d.config.numDraftTokens.toNat : ℕ) : ℤ) =
          maxTokens - tokensGenerated - d.config.numDraftTokens := by omega
      rw [generateLoop_succ hmore hdraft, ih (by omega), hrest,
        draftRounds_succ hdraft (by omega : 0 < maxTokens - tokensGenerated)]
      refine Prod.ext ?_ ?_
      · show output ++ draftTokens output _ ++ drafts _ _ = _
        unfold drafts
        rw [join_replicate_succ, String.append_assoc]
        rfl
      · simp only [SpeculativeDecoder.mk.injEq, true_and, and_true]
        ring
    · rw [generateLoop_stop (by omega), draftRounds_of_done (by omega)]
      simp [drafts]

/-- What `generate` returns, and the tokens it counts: one more for each draft. -/
theorem generate_eq (d : SpeculativeDecoder) (prompt : String) (maxTokens : ℤ) :
    d.generate prompt maxTokens =
      (prompt ++ drafts d.config.numDraftTokens (draftRounds d.config.numDraftTokens maxTokens),
        { d with
          verifiedTokens := d.verifiedTokens +
            draftRounds d.config.numDraftTokens maxTokens *
              (d.config.numDraftTokens.toNat + 1) }) := by
  have hloop : generateLoop maxTokens maxTokens.toNat prompt 0 d = _ := generateLoop_eq (by omega)
  rw [Nat.cast_zero, Int.sub_zero] at hloop
  exact hloop

/-- A call of `generate`. -/
structure Request where
  prompt : String
  maxTokens : ℤ

/-- The decoder after a call of `generate`. -/
def step (d : SpeculativeDecoder) (r : Request) : SpeculativeDecoder :=
  (d.generate r.prompt r.maxTokens).2

/-- What the call returned. -/
def emit (d : SpeculativeDecoder) (r : Request) : List (Request × String) :=
  [(r, (d.generate r.prompt r.maxTokens).1)]

/-- The tokens a request adds to the count. -/
def Request.verified (config : SpeculativeDecodingConfig) (r : Request) : ℕ :=
  draftRounds config.numDraftTokens r.maxTokens * (config.numDraftTokens.toNat + 1)

theorem Request.verified_pos {config : SpeculativeDecodingConfig} {r : Request} :
    0 < r.verified config ↔ 0 < config.numDraftTokens ∧ 0 < r.maxTokens := by
  unfold verified
  by_cases h : 0 < config.numDraftTokens ∧ 0 < r.maxTokens
  · refine iff_of_true ?_ h
    rw [draftRounds_succ h.1 h.2]
    positivity
  · rw [draftRounds_of_done (by omega), Nat.zero_mul]
    exact iff_of_false (lt_irrefl 0) h

theorem run_eq (config : SpeculativeDecodingConfig) (tr : List Request) :
    run step { config } tr =
      { config, verifiedTokens := (tr.map (Request.verified config)).sum } := by
  induction tr using List.reverseRecOn with
  | nil => rfl
  | append_singleton tr r ih =>
    rw [run_snoc, ih, List.map_append, List.sum_append]
    unfold step
    rw [generate_eq]
    simp [Request.verified]

/-- A decoder that rejects nothing accepts everything, once it has seen a token. -/
theorem acceptanceRate_eq (h : d.rejectedTokens = 0) :
    d.getStats.acceptanceRate = if 0 < d.verifiedTokens then 100 else 0 := by
  unfold getStats
  dsimp only
  rw [h, Nat.add_zero]
  split_ifs with hpos
  · rw [div_self (Nat.cast_ne_zero.mpr hpos.ne'), one_mul]
  · rfl

/-- **Speculation.** In every history of a decoder each output is the prompt and the drafts: enough
for what was asked, and less than one draft too many, or none. One token too many is counted for each
draft. None is rejected, so the rate is 100% as soon as one is drafted. -/
theorem speculation_run (config : SpeculativeDecodingConfig) (tr : List Request) :
    (run step { config } tr).getStats =
      { verifiedTokens := (tr.map (Request.verified config)).sum
        rejectedTokens := 0
        acceptanceRate :=
          if 0 < config.numDraftTokens ∧ ∃ r ∈ tr, 0 < r.maxTokens then 100 else 0
        estimatedSpeedup := config.expectedSpeedup } ∧
    ∀ p ∈ log step emit { config } tr, ∃ k : ℕ,
      p.2 = p.1.prompt ++ drafts config.numDraftTokens k ∧
      if 0 < config.numDraftTokens ∧ 0 < p.1.maxTokens then
        p.1.maxTokens ≤ k * config.numDraftTokens ∧
          k * config.numDraftTokens < p.1.maxTokens + config.numDraftTokens
      else k = 0 := by
  constructor
  · rw [run_eq]
    have hrate := acceptanceRate_eq
      (d := { config, verifiedTokens := (tr.map (Request.verified config)).sum }) rfl
    unfold getStats at hrate ⊢
    dsimp only at hrate ⊢
    rw [hrate]
    have hpos : 0 < (tr.map (Request.verified config)).sum ↔
        0 < config.numDraftTokens ∧ ∃ r ∈ tr, 0 < r.maxTokens := by
      rw [List.sum_pos_iff_exists_pos_nat]
      simp only [List.mem_map, exists_exists_and_eq_and, Request.verified_pos]
      tauto
    simp only [hpos]
  · intro p hp
    obtain ⟨pre, r, -, hmem⟩ := exists_of_mem_log hp
    obtain rfl := List.mem_singleton.mp hmem
    refine ⟨draftRounds config.numDraftTokens r.maxTokens, ?_, ?_⟩
    · rw [run_eq, generate_eq]
    · split_ifs with h
      · exact draftRounds_spec h.1 h.2
      · exact draftRounds_of_done (by dsimp only at h; omega)

end SpeculativeDecoder

namespace LLMOptimizationEngine

open PromptCache SpeculativeDecoder

variable {α : Type}

/-! ## The engine -/

/-- A call on the engine or on its pages. -/
inductive Call
  | engine (op : Op)
  | pages (op : PagedAttention.Op)

/-- What a call of `generate` returned. -/
structure Reply where
  prompt : String
  maxTokens : ℤ
  result : Except Error (String × GenerationMetrics)

namespace Reply

def cacheHit (r : Reply) : Bool :=
  match r.result with
  | .ok (_, metrics) => metrics.cacheHit
  | .error _ => false

def latencyMs (r : Reply) : ℚ :=
  match r.result with
  | .ok (_, metrics) => metrics.latencyMs
  | .error _ => 0

end Reply

section Calls

variable (model : String → ℤ → Except Error String)

/-- The engine after a call, whether or not the call raised. -/
def call (e : LLMOptimizationEngine α) : Call → LLMOptimizationEngine α
  | .engine op => e.step model op
  | .pages op => { e with pagedAttention := e.pagedAttention.step op }

def emitReply (e : LLMOptimizationEngine α) : Call → List Reply
  | .engine (.generate prompt maxTokens now) =>
    [⟨prompt, maxTokens, (e.generate model prompt maxTokens now).1⟩]
  | .engine (.enableSpeculativeDecoding _) => []
  | .pages _ => []

/-- What a reply can be: the exception of the model; a hit; the output of the model, or that of the
decoder; or the prompt again, for which alone latency is saved. -/
inductive Reply.Sound (model : String → ℤ → Except Error String) : Reply → Prop
  | raised {prompt maxTokens error} (h : model prompt maxTokens = .error error) :
      Sound model ⟨prompt, maxTokens, .error error⟩
  | hit {prompt maxTokens} :
      Sound model ⟨prompt, maxTokens, .ok (prompt ++ "cached_response", { cacheHit := true })⟩
  | computed {prompt maxTokens output memorySaved} (h : model prompt maxTokens = .ok output) :
      Sound model ⟨prompt, maxTokens, .ok (output, { memorySaved })⟩
  | decoded {prompt maxTokens memorySaved} (n : ℤ) (k : ℕ) :
      Sound model ⟨prompt, maxTokens, .ok (prompt ++ drafts n k, { memorySaved })⟩
  | idle {prompt maxTokens memorySaved} :
      Sound model ⟨prompt, maxTokens,
        .ok (prompt, { speculativeSpeedup := 0, memorySaved, latencyMs := 30 })⟩

/-- What the engine keeps. -/
structure Accounts (replies : List Reply) (e : LLMOptimizationEngine α) : Prop where
  hits : e.promptCache.hits = replies.countP Reply.cacheHit
  lookups : e.promptCache.hits + e.promptCache.misses = replies.length
  entries : e.promptCache.cache.len ≤ 101
  maxCacheTokens : e.promptCache.maxCacheTokens = 10000
  saved : e.totalLatencySavedMs = (replies.map Reply.latencyMs).sum
  pages : e.pagedAttention.numPages = 100
  rejected : ∀ d, e.speculativeDecoder = some d → d.rejectedTokens = 0
  sound : ∀ r ∈ replies, r.Sound model

theorem accounts_init : Accounts model [] (init α) where
  hits := rfl
  lookups := rfl
  entries := Nat.zero_le 101
  maxCacheTokens := rfl
  saved := rfl
  pages := rfl
  rejected _ h := by cases h
  sound _ h := by cases h

variable {model} {e : LLMOptimizationEngine α} {replies : List Reply}

theorem len_store {c : PromptCache α} (h : c.maxCacheTokens = 10000) (hlen : c.cache.len ≤ 101)
    (prompt : String) (embeddings : Dict String α) (tokens now : ℤ) :
    (c.store prompt embeddings tokens now).cache.len ≤ 101 := by
  unfold store
  dsimp only
  rw [h, Dict.len_set]
  have hlast : (c.cache.lastItems 100).len ≤ 100 := by
    unfold Dict.lastItems Dict.len
    rw [List.length_drop]
    omega
  split_ifs <;> omega

/-- A lookup is counted once, and changes nothing else. -/
theorem lookup_cases (c : PromptCache α) (prompt : String) :
    (∃ entry, c.lookup prompt = (some entry, { c with hits := c.hits + 1 })) ∨
      c.lookup prompt = (none, { c with misses := c.misses + 1 }) := by
  unfold lookup
  cases c.cache.get? (getCacheKey prompt) with
  | some entry => exact .inl ⟨entry, rfl⟩
  | none => exact .inr rfl

/-- The metrics of an output that was not cached. -/
def missMetrics (speculativeSpeedup : ℚ) (memorySaved : ℤ) : GenerationMetrics where
  speculativeSpeedup
  memorySaved
  latencyMs := 100 * (0 + (1 - speculativeSpeedup) * (3 / 10))

theorem missMetrics_one (memorySaved : ℤ) : missMetrics 1 memorySaved = { memorySaved } := by
  unfold missMetrics
  norm_num

theorem missMetrics_zero (memorySaved : ℤ) :
    missMetrics 0 memorySaved = { speculativeSpeedup := 0, memorySaved, latencyMs := 30 } := by
  unfold missMetrics
  norm_num

/-- A decoder that has generated something by now saves nothing. -/
theorem decoded_sound {d : SpeculativeDecoder} (h : d.rejectedTokens = 0) (prompt : String)
    (maxTokens memorySaved : ℤ) :
    Reply.Sound model ⟨prompt, maxTokens, .ok ((d.generate prompt maxTokens).1,
      missMetrics ((d.generate prompt maxTokens).2.getStats.acceptanceRate / 100) memorySaved)⟩ := by
  have hrejected : (d.generate prompt maxTokens).2.rejectedTokens = 0 := by rwa [generate_eq]
  rw [acceptanceRate_eq hrejected, generate_eq]
  dsimp only
  split_ifs with hpos
  · rw [div_self (by norm_num), missMetrics_one]
    exact .decoded _ _
  · have hnone : draftRounds d.config.numDraftTokens maxTokens = 0 := by
      by_contra hne
      exact hpos (Nat.add_pos_right _ (Nat.mul_pos (Nat.pos_of_ne_zero hne) (by omega)))
    rw [zero_div, missMetrics_zero, hnone]
    simpa [drafts] using Reply.Sound.idle

/-- How an output comes about. -/
theorem complete_cases (model : String → ℤ → Except Error String) (e : LLMOptimizationEngine α)
    (hrejected : ∀ d, e.speculativeDecoder = some d → d.rejectedTokens = 0) (prompt : String)
    (maxTokens : ℤ) :
    (∃ error, model prompt maxTokens = .error error ∧
      e.complete model prompt maxTokens = (.error error, e)) ∨
    ∃ output speedup decoder,
      e.complete model prompt maxTokens =
        (.ok (output, speedup), { e with speculativeDecoder := decoder }) ∧
      (∀ d, decoder = some d → d.rejectedTokens = 0) ∧
      ∀ memorySaved, Reply.Sound model
        ⟨prompt, maxTokens, .ok (output, missMetrics speedup memorySaved)⟩ := by
  unfold complete
  cases hdecoder : e.speculativeDecoder with
  | none =>
    cases hmodel : model prompt maxTokens with
    | error error => exact .inl ⟨error, rfl, rfl⟩
    | ok output =>
      refine .inr ⟨output, 1, none, ?_, fun d hd => (by cases hd), fun memorySaved => ?_⟩
      · show (Except.ok (output, 1), e) = _
        rw [← hdecoder]
      · rw [missMetrics_one]
        exact .computed hmodel
  | some d =>
    have hd := hrejected d hdecoder
    refine .inr ⟨_, _, some (d.generate prompt maxTokens).2, rfl, ?_,
      fun memorySaved => decoded_sound hd prompt maxTokens memorySaved⟩
    rintro d' ⟨⟩
    rw [generate_eq]
    exact hd

/-- How a call of `generate` ends. -/
theorem generate_cases (model : String → ℤ → Except Error String)
    (hpages : e.pagedAttention.numPages = 100)
    (hrejected : ∀ d, e.speculativeDecoder = some d → d.rejectedTokens = 0) (prompt : String)
    (maxTokens now : ℤ) :
    (e.generate model prompt maxTokens now =
      (.ok (prompt ++ "cached_response", { cacheHit := true }),
        { e with promptCache := { e.promptCache with hits := e.promptCache.hits + 1 } })) ∨
    (∃ error, model prompt maxTokens = .error error ∧
      e.generate model prompt maxTokens now = (.error error,
        { e with promptCache := { e.promptCache with misses := e.promptCache.misses + 1 } })) ∨
    ∃ output metrics decoder,
      e.generate model prompt maxTokens now = (.ok (output, metrics),
        { e with
          speculativeDecoder := decoder
          promptCache :=
            { e.promptCache with misses := e.promptCache.misses + 1 }.store prompt ∅ maxTokens now
          totalLatencySavedMs := e.totalLatencySavedMs + metrics.latencyMs }) ∧
      metrics.cacheHit = false ∧ (∀ d, decoder = some d → d.rejectedTokens = 0) ∧
      Reply.Sound model ⟨prompt, maxTokens, .ok (output, metrics)⟩ := by
  unfold generate
  rcases lookup_cases e.promptCache prompt with ⟨entry, hlookup⟩ | hlookup
  · refine .inl ?_
    rw [hlookup]
  · refine .inr ?_
    rw [hlookup]
    dsimp only
    rcases complete_cases model
      { e with promptCache := { e.promptCache with misses := e.promptCache.misses + 1 } }
      hrejected prompt maxTokens with
      ⟨error, hmodel, hcomplete⟩ | ⟨output, speedup, decoder, hcomplete, hdecoder, hsound⟩
    · rw [hcomplete]
      exact .inl ⟨error, hmodel, rfl⟩
    · rw [hcomplete]
      dsimp only
      have husage : ∃ stats, e.pagedAttention.getMemoryUsage = .ok stats := by
        unfold PagedAttention.getMemoryUsage
        rw [if_neg (by rw [hpages]; decide)]
        exact ⟨_, rfl⟩
      obtain ⟨stats, hstats⟩ := husage
      rw [hstats]
      exact .inr ⟨output, missMetrics speedup stats.totalTokensCached, decoder, rfl, rfl, hdecoder,
        hsound _⟩

/-- One more reply. -/
theorem Accounts.reply {r : Reply} {e' : LLMOptimizationEngine α} (h : Accounts model replies e)
    (hhits : e'.promptCache.hits = e.promptCache.hits + if r.cacheHit then 1 else 0)
    (hlookups : e'.promptCache.hits + e'.promptCache.misses =
      e.promptCache.hits + e.promptCache.misses + 1)
    (hentries : e'.promptCache.cache.len ≤ 101)
    (hmax : e'.promptCache.maxCacheTokens = e.promptCache.maxCacheTokens)
    (hsaved : e'.totalLatencySavedMs = e.totalLatencySavedMs + r.latencyMs)
    (hpages : e'.pagedAttention = e.pagedAttention)
    (hrejected : ∀ d, e'.speculativeDecoder = some d → d.rejectedTokens = 0)
    (hsound : r.Sound model) : Accounts model (replies ++ [r]) e' where
  hits := by rw [hhits, h.hits, List.countP_append, List.countP_singleton]
  lookups := by rw [hlookups, h.lookups, List.length_append, List.length_singleton]
  entries := hentries
  maxCacheTokens := hmax.trans h.maxCacheTokens
  saved := by
    rw [hsaved, h.saved, List.map_append, List.sum_append, List.map_singleton, List.sum_singleton]
  pages := hpages ▸ h.pages
  rejected := hrejected
  sound := List.forall_mem_append.mpr ⟨h.sound, List.forall_mem_singleton.mpr hsound⟩

theorem Accounts.call (h : Accounts model replies e) (c : Call) :
    Accounts model (replies ++ emitReply model e c) (e.call model c) := by
  cases c with
  | pages op =>
    rw [show emitReply model e (.pages op) = [] from rfl, List.append_nil]
    exact { h with pages := (PagedAttention.sizes_step e.pagedAttention op).2.trans h.pages }
  | engine op =>
    cases op with
    | enableSpeculativeDecoding config =>
      rw [show emitReply model e (.engine (.enableSpeculativeDecoding config)) = [] from rfl,
        List.append_nil]
      refine { h with rejected := ?_ }
      rintro d ⟨⟩
      rfl
    | generate prompt maxTokens now =>
      have hemit : emitReply model e (.engine (.generate prompt maxTokens now)) =
        [⟨prompt, maxTokens, (e.generate model prompt maxTokens now).1⟩] := rfl
      have hcall : e.call model (.engine (.generate prompt maxTokens now)) =
        (e.generate model prompt maxTokens now).2 := rfl
      rw [hemit, hcall]
      rcases generate_cases model h.pages h.rejected prompt maxTokens now with
        hgen | ⟨error, hmodel, hgen⟩ | ⟨output, metrics, decoder, hgen, hmiss, hdecoder, hsound⟩
      · rw [hgen]
        exact h.reply rfl (Nat.add_right_comm _ _ _) h.entries rfl (add_zero _).symm rfl h.rejected
          .hit
      · rw [hgen]
        exact h.reply rfl (Nat.add_assoc _ _ _).symm h.entries rfl (add_zero _).symm rfl h.rejected
          (.raised hmodel)
      · rw [hgen]
        refine h.reply ?_ (Nat.add_assoc _ _ _).symm
          (len_store h.maxCacheTokens h.entries prompt ∅ maxTokens now) rfl rfl rfl hdecoder hsound
        simp [Reply.cacheHit, hmiss, store]

theorem accounts_run (model : String → ℤ → Except Error String) (tr : List Call) :
    Accounts model (log (call model) (emitReply model) (init α) tr)
      (run (call model) (init α) tr) :=
  run_log (P := Accounts model) (accounts_init model) (fun _ _ h c => h.call c) tr

theorem Reply.Sound.latencyMs_cases {r : Reply} (h : r.Sound model) :
    r.latencyMs = 0 ∨ r.latencyMs = 30 ∧ r.cacheHit = false ∧
      ∃ metrics, r.result = .ok (r.prompt, metrics) := by
  cases h with
  | raised _ => exact .inl rfl
  | hit => exact .inl rfl
  | computed _ => exact .inl rfl
  | decoded n k => exact .inl rfl
  | idle => exact .inr ⟨rfl, rfl, _, rfl⟩

/-- **Savings.** In every history of an engine, whatever the model answers: each lookup is a hit or a
miss, and the hits are those reported. At most 101 prompts are cached. The latency saved is what the
replies report, 30 ms or nothing each, and only a reply that is the prompt itself reports any. -/
theorem savings_run (model : String → ℤ → Except Error String) (tr : List Call) :
    let e := run (call model) (init α) tr
    let replies := log (call model) (emitReply model) (init α) tr
    e.promptCache.hits = replies.countP Reply.cacheHit ∧
    e.promptCache.hits + e.promptCache.misses = replies.length ∧
    e.promptCache.cache.len ≤ 101 ∧
    e.totalLatencySavedMs = (replies.map Reply.latencyMs).sum ∧
    ∀ r ∈ replies, r.latencyMs = 0 ∨ r.latencyMs = 30 ∧ r.cacheHit = false ∧
      ∃ metrics, r.result = .ok (r.prompt, metrics) := by
  intro e replies
  have h : Accounts model replies e := accounts_run model tr
  exact ⟨h.hits, h.lookups, h.entries, h.saved, fun r hr => (h.sound r hr).latencyMs_cases⟩

end Calls

end LLMOptimizationEngine

end PyStreamAI
