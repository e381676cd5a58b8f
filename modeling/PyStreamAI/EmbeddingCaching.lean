import PyStreamAI.Caching
import PyStreamAI.Machine

/-!
# The embedding cache

`total_size_bytes` is recomputed by an eviction and otherwise only added to, so it counts an entry
twice that is set again, and it is exact as long as no `set` overwrites an embedding
(`exactSize_iff`). It is never too small, so a call that evicts nothing stays within the capacity;
a call that evicts keeps the newest 100 entries whatever their size (`withinCapacity_iff`). The
entries themselves are always right (`getEmbedding_eq_embed`).
-/

open Py Machine

namespace PyStreamAI

namespace EmbeddingCache

/-- `EmbeddingCache(embedding_model, max_cache_size_mb)`. -/
def init (maxCacheSizeMb : ℤ) : EmbeddingCache := { maxCacheSizeMb }

/-- The cache after `set(text, embedding)`. -/
def step (sha : Digest) (c : EmbeddingCache) (call : String × List ℚ) : EmbeddingCache :=
  c.set sha call.1 call.2

/-- The bytes of the embeddings held, 8 per float. -/
def heldBytes (c : EmbeddingCache) : ℕ := c.cache.sum fun e => e.length * 8

/-- The bytes the cache may hold. -/
def capacity (c : EmbeddingCache) : ℤ := c.maxCacheSizeMb * 1024 * 1024

/-- The size check of `set` fails. -/
def Overflows (c : EmbeddingCache) (embedding : List ℚ) : Prop :=
  c.capacity < c.totalSizeBytes + (embedding.length * 8 : ℕ)

instance (c : EmbeddingCache) (embedding : List ℚ) : Decidable (c.Overflows embedding) :=
  inferInstanceAs (Decidable (_ < _))

/-- The cache after the size check of `set`. -/
def makeRoom (c : EmbeddingCache) (embedding : List ℚ) : EmbeddingCache :=
  if c.Overflows embedding then c.evict else c

variable {c : EmbeddingCache} {sha : Digest} {text : String} {embedding : List ℚ}

theorem set_eq (sha : Digest) (c : EmbeddingCache) (text : String) (embedding : List ℚ) :
    c.set sha text embedding =
      { c.makeRoom embedding with
        cache := (c.makeRoom embedding).cache.set (sha.hexdigest text) embedding
        totalSizeBytes := (c.makeRoom embedding).totalSizeBytes + embedding.length * 8 } := by
  unfold set makeRoom
  by_cases h : c.Overflows embedding
  · rw [if_pos h]
    unfold Overflows capacity at h
    dsimp only
    rw [if_pos h]
  · rw [if_neg h]
    unfold Overflows capacity at h
    dsimp only
    rw [if_neg h]

theorem get?_of_makeRoom {key : String} {old : List ℚ}
    (h : (c.makeRoom embedding).cache.get? key = some old) : c.cache.get? key = some old := by
  unfold makeRoom at h
  split_ifs at h
  · exact Dict.get?_of_lastItems h
  · exact h

theorem totalSizeBytes_evict (c : EmbeddingCache) :
    c.evict.totalSizeBytes = c.evict.heldBytes := by
  unfold evict heldBytes Dict.sum
  rfl

/-- The bytes held after a call: the overwritten entry is gone. -/
theorem heldBytes_set (sha : Digest) (c : EmbeddingCache) (text : String) (embedding : List ℚ) :
    (c.set sha text embedding).heldBytes =
      ((c.makeRoom embedding).cache.erase (sha.hexdigest text)).sum (fun e => e.length * 8) +
        embedding.length * 8 := by
  rw [set_eq]
  exact Dict.sum_set _ _ _ _

theorem capacity_set (sha : Digest) (c : EmbeddingCache) (text : String) (embedding : List ℚ) :
    (c.set sha text embedding).capacity = c.capacity := by
  rw [set_eq]
  unfold makeRoom
  split_ifs <;> rfl

theorem capacity_run (sha : Digest) (mb : ℤ) (tr : List (String × List ℚ)) :
    (run (step sha) (init mb) tr).capacity = mb * 1024 * 1024 :=
  run_invariant (I := fun c : EmbeddingCache => c.capacity = mb * 1024 * 1024) rfl
    (fun c h call => (capacity_set sha c call.1 call.2).trans h) tr

/-! ## The size accounting -/

/-- `total_size_bytes` is the number of bytes held. -/
def ExactSize (c : EmbeddingCache) : Prop := c.totalSizeBytes = c.heldBytes

/-- The call overwrites no embedding, except an empty one, that its eviction leaves. -/
def SetsFresh (sha : Digest) (c : EmbeddingCache) (call : String × List ℚ) : Prop :=
  ∀ old, (c.makeRoom call.2).cache.get? (sha.hexdigest call.1) = some old → old = []

theorem ExactSize.makeRoom (h : c.ExactSize) (embedding : List ℚ) :
    (c.makeRoom embedding).ExactSize := by
  unfold EmbeddingCache.makeRoom
  split_ifs
  · exact totalSizeBytes_evict c
  · exact h

theorem ExactSize.step_iff (h : c.ExactSize) (call : String × List ℚ) :
    SetsFresh sha c call ↔ (step sha c call).ExactSize := by
  have hroom : (c.makeRoom call.2).totalSizeBytes =
      (c.makeRoom call.2).cache.sum fun e => e.length * 8 := h.makeRoom call.2
  have herase := Dict.sum_erase (fun e : List ℚ => e.length * 8) (c.makeRoom call.2).cache
    (sha.hexdigest call.1)
  have hexact : (step sha c call).ExactSize ↔
      ((c.makeRoom call.2).cache.get? (sha.hexdigest call.1)).elim 0
        (fun e => e.length * 8) = 0 := by
    show (c.makeRoom call.2).totalSizeBytes + call.2.length * 8 =
      (c.set sha call.1 call.2).heldBytes ↔ _
    rw [heldBytes_set]
    omega
  rw [hexact]
  unfold SetsFresh
  cases hold : (c.makeRoom call.2).cache.get? (sha.hexdigest call.1) with
  | none => simp
  | some old => simp [List.length_eq_zero_iff]

/-- **Size accounting.** The accounting is exact throughout a sequence of calls exactly when no
call of it overwrites an embedding that is still in the cache. -/
theorem exactSize_iff (sha : Digest) (mb : ℤ) (tr : List (String × List ℚ)) :
    (∀ pre, pre <+: tr → (run (step sha) (init mb) pre).ExactSize) ↔
      Along (step sha) (SetsFresh sha) (init mb) tr :=
  forall_prefix_iff_along (I := fun pre => (run (step sha) (init mb) pre).ExactSize) rfl
    (fun pre h call => by rw [run_snoc]; exact h.step_iff call) tr

/-- An embedding that is set twice counts twice. -/
theorem setTwice_counts :
    let c := run (step default) (init 1) [("a", [1]), ("a", [1])]
    c.totalSizeBytes = 16 ∧ c.heldBytes = 8 ∧ ¬ c.ExactSize := by
  unfold ExactSize
  decide +kernel

/-! ## The capacity -/

/-- The bytes held are at most the bytes counted. -/
theorem heldBytes_le_run (sha : Digest) (mb : ℤ) (tr : List (String × List ℚ)) :
    (run (step sha) (init mb) tr).heldBytes ≤ (run (step sha) (init mb) tr).totalSizeBytes := by
  refine run_invariant (I := fun c : EmbeddingCache => c.heldBytes ≤ c.totalSizeBytes)
    (le_refl 0)
    (fun c h call => ?_) tr
  have hroom : (c.makeRoom call.2).cache.sum (fun e => e.length * 8) ≤
      (c.makeRoom call.2).totalSizeBytes := by
    unfold makeRoom
    split_ifs
    · exact (totalSizeBytes_evict c).ge
    · exact h
  have herase := Dict.sum_erase (fun e : List ℚ => e.length * 8) (c.makeRoom call.2).cache
    (sha.hexdigest call.1)
  show (c.set sha call.1 call.2).heldBytes ≤
    (c.makeRoom call.2).totalSizeBytes + call.2.length * 8
  rw [heldBytes_set]
  omega

/-- If the call evicts, the entries it keeps and does not overwrite leave room for the
embedding. -/
def LeavesRoom (sha : Digest) (c : EmbeddingCache) (call : String × List ℚ) : Prop :=
  c.Overflows call.2 →
    ((c.evict.cache.erase (sha.hexdigest call.1)).sum (fun e => e.length * 8) +
      call.2.length * 8 : ℕ) ≤ c.capacity

theorem leavesRoom_iff (h : c.heldBytes ≤ c.totalSizeBytes) (call : String × List ℚ) :
    LeavesRoom sha c call ↔ ((step sha c call).heldBytes : ℤ) ≤ c.capacity := by
  have hheld := heldBytes_set sha c call.1 call.2
  unfold makeRoom at hheld
  show _ ↔ ((c.set sha call.1 call.2).heldBytes : ℤ) ≤ c.capacity
  unfold LeavesRoom
  by_cases hover : c.Overflows call.2
  · rw [if_pos hover] at hheld
    rw [hheld]
    exact ⟨fun hroom => hroom hover, fun hle _ => hle⟩
  · rw [if_neg hover] at hheld
    have herase := Dict.sum_erase (fun e : List ℚ => e.length * 8) c.cache (sha.hexdigest call.1)
    have hfits : ((c.totalSizeBytes : ℤ) + (call.2.length * 8 : ℕ)) ≤ c.capacity := not_lt.mp hover
    refine iff_of_true (fun hover' => absurd hover' hover) ?_
    rw [hheld]
    unfold heldBytes at h
    omega

/-- **Capacity.** After every call the bytes held are within the capacity exactly when each call
that evicts keeps entries that leave room for its embedding. -/
theorem withinCapacity_iff (sha : Digest) (mb : ℤ) (tr : List (String × List ℚ)) :
    (∀ pre call, pre ++ [call] <+: tr →
      ((run (step sha) (init mb) (pre ++ [call])).heldBytes : ℤ) ≤ mb * 1024 * 1024) ↔
        Along (step sha) (LeavesRoom sha) (init mb) tr := by
  rw [along_iff_forall]
  refine forall₃_congr fun pre call _ => ?_
  rw [leavesRoom_iff (heldBytes_le_run sha mb pre), capacity_run, run_snoc]

section OneMiB

/-- The cache of 1 MiB after a first embedding of 1 MiB. -/
def holding (e : List ℚ) : EmbeddingCache :=
  { maxCacheSizeMb := 1
    cache := (∅ : Dict String (List ℚ)).set ((default : Digest).hexdigest "a") e
    totalSizeBytes := 1048576 }

variable {e : List ℚ} (he : e.length = 131072)
include he

theorem step_holding : step default (init 1) ("a", e) = holding e := by
  have hfits : ¬ (init 1).Overflows e := by
    unfold Overflows
    rw [he]
    decide
  rw [step, set_eq, makeRoom, if_neg hfits, he]
  rfl

/-- The eviction before the second embedding keeps the first. -/
theorem heldBytes_twice :
    (run (step default) (init 1) [("a", e), ("b", e)]).heldBytes = 2097152 := by
  have hover : (holding e).Overflows e := by
    unfold Overflows
    rw [he]
    show (1 * 1024 * 1024 : ℤ) < (1048576 : ℕ) + (131072 * 8 : ℕ)
    decide
  have hkeeps : (holding e).evict.cache = (holding e).cache := by
    refine Dict.lastItems_of_le ?_
    unfold holding
    rw [Dict.len_set]
    decide
  have hother : (holding e).cache.get? ((default : Digest).hexdigest "b") = none := by
    unfold holding
    rw [Dict.get?_set, if_neg (by decide)]
    rfl
  have hsum : (holding e).cache.sum (fun e => e.length * 8) = 1048576 := by
    have hempty : ((∅ : Dict String (List ℚ)).erase ((default : Digest).hexdigest "a")).sum
        (fun e => e.length * 8) = 0 := rfl
    unfold holding
    rw [Dict.sum_set, hempty, he]
  rw [run_cons, run_cons, run_nil, step_holding he, step, heldBytes_set, makeRoom, if_pos hover,
    hkeeps, Dict.erase_of_none hother, hsum, he]

end OneMiB

/-- An embedding of 1 MiB. -/
def oneMiB : List ℚ := List.replicate 131072 0

theorem length_oneMiB : oneMiB.length = 131072 := List.length_replicate

/-- Two embeddings of 1 MiB in a cache of 1 MiB: the eviction before the second keeps the first. -/
theorem secondMiB_kept :
    (oneMiB.length * 8 : ℤ) ≤ 1 * 1024 * 1024 ∧
      (run (step default) (init 1) [("a", oneMiB), ("b", oneMiB)]).heldBytes = 2097152 ∧
      ¬ ∀ pre call, pre ++ [call] <+: [("a", oneMiB), ("b", oneMiB)] →
        ((run (step default) (init 1) (pre ++ [call])).heldBytes : ℤ) ≤ 1 * 1024 * 1024 := by
  have hheld := heldBytes_twice length_oneMiB
  refine ⟨by rw [length_oneMiB]; decide, hheld, fun h => ?_⟩
  have hle := h [("a", oneMiB)] ("b", oneMiB) List.prefix_rfl
  rw [List.singleton_append, hheld] at hle
  revert hle
  decide

/-! ## The entries -/

/-- Every embedding held is the one of the text it is held for. -/
def HoldsEmbeds (sha : Digest) (c : EmbeddingCache) : Prop :=
  ∀ key e, c.cache.get? key = some e → ∃ text, key = sha.hexdigest text ∧ e = embed text

theorem holdsEmbeds_init (sha : Digest) (mb : ℤ) : HoldsEmbeds sha (init mb) :=
  fun _ _ h => by cases h

theorem HoldsEmbeds.set (h : HoldsEmbeds sha c) (text : String) :
    HoldsEmbeds sha (c.set sha text (embed text)) := by
  intro key e he
  rw [set_eq] at he
  dsimp only at he
  rw [Dict.get?_set] at he
  split_ifs at he with hkey
  · exact ⟨text, hkey, (Option.some.inj he).symm⟩
  · exact h key e (get?_of_makeRoom he)

/-- No two texts have one digest, so what is held for a text is its embedding. -/
theorem HoldsEmbeds.get (h : HoldsEmbeds sha c) {text : String} {e : List ℚ}
    (he : c.get sha text = some e) : e = embed text := by
  obtain ⟨text', hkey, rfl⟩ := h _ e he
  rw [sha.injective hkey]

end EmbeddingCache

namespace HybridCache

open EmbeddingCache

variable {V S : Type} {sha : Digest} {c : HybridCache V S}

theorem getEmbedding_fst (h : HoldsEmbeds sha c.embeddingCache) (text : String) :
    (c.getEmbedding sha text).1 = embed text := by
  unfold getEmbedding
  cases hget : (c.embeddingCache.get sha text).filter (· ≠ []) with
  | none => rfl
  | some cached => exact h.get (Option.filter_eq_some_iff.mp hget).1

theorem holdsEmbeds_getEmbedding (h : HoldsEmbeds sha c.embeddingCache) (text : String) :
    HoldsEmbeds sha (c.getEmbedding sha text).2.embeddingCache := by
  unfold getEmbedding
  cases (c.embeddingCache.get sha text).filter (· ≠ []) with
  | none => exact h.set text
  | some cached => exact h

theorem embeddingCache_setResult [Cacheable V] (c : HybridCache V S) (m : String) (x : Json)
    (v : V) : (c.setResult sha m x v).2.embeddingCache = c.embeddingCache := by
  unfold setResult
  dsimp only
  split <;> rfl

variable [LinearOrder S] [Zero S] (similarity : List ℚ → List ℚ → S) [Cacheable V]

theorem embeddingCache_getResult (c : HybridCache V S) (m : String) (x : Json) :
    (c.getResult similarity sha m x).2.embeddingCache = c.embeddingCache := by
  unfold getResult
  dsimp only
  split
  · rfl
  · split <;> rfl

theorem holdsEmbeds_step (h : HoldsEmbeds sha c.embeddingCache) (op : CacheOp V) :
    HoldsEmbeds sha (c.step similarity sha op).embeddingCache := by
  cases op with
  | getEmbedding text => exact holdsEmbeds_getEmbedding h text
  | getResult m x =>
    show HoldsEmbeds sha (c.getResult similarity sha m x).2.embeddingCache
    rw [embeddingCache_getResult]
    exact h
  | setResult m x v =>
    show HoldsEmbeds sha (c.setResult sha m x v).2.embeddingCache
    rw [embeddingCache_setResult]
    exact h
  | invalidateModel m => exact h

/-- **Transparency.** Whatever was called on the hybrid cache and evicted by it before,
`get_embedding` returns the embedding of the text. -/
theorem getEmbedding_eq_embed (sha : Digest) (semanticCache : SemanticCache V S)
    (resultCache : ResultCache V) (mb : ℤ) (tr : List (CacheOp V)) (text : String) :
    ((run (step similarity sha) ⟨semanticCache, .init mb, resultCache⟩ tr).getEmbedding sha
      text).1 = embed text := by
  have h : HoldsEmbeds sha
      (run (step similarity sha) ⟨semanticCache, .init mb, resultCache⟩ tr).embeddingCache :=
    run_invariant (I := fun c : HybridCache V S => HoldsEmbeds sha c.embeddingCache)
      (holdsEmbeds_init sha mb) (fun _ h op => holdsEmbeds_step similarity h op) tr
  exact getEmbedding_fst h text

end HybridCache

end PyStreamAI
