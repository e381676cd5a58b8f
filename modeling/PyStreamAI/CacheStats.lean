import Mathlib.Data.List.DropRight
import Mathlib.Tactic.Linarith
import PyStreamAI.CachingHistory
import PyStreamAI.Machine

/-!
# What the cache statistics count

An entry counts its hits, a new result under its key starts again from 0, and an entry that is
removed takes its hits with it. So the hits of an entry are those since it was stored last
(`stats_run`), and no statistic counts more hits than there were calls, but for those whose result
counts as false: such a call goes on to the semantic cache and may be counted there as well.
-/

open Py Machine

namespace PyStreamAI

/-! ## Statistics -/

variable {V S : Type}

/-- `sum(e.hit_count for e in cache.values())`. -/
def totalHits (cache : Dict String (CacheEntry V)) : ℕ := cache.sum CacheEntry.hitCount

def totalSize (cache : Dict String (CacheEntry V)) : ℕ := cache.sum CacheEntry.sizeBytes

/-- Get cache statistics, the items of a dictionary. -/
def SemanticCache.getStats (c : SemanticCache V S) : List (String × ℚ) :=
  if c.cache.len = 0 then [("entries", 0), ("hit_rate", 0)]
  else
    [("entries", c.cache.len), ("total_hits", totalHits c.cache),
      ("total_size_mb", totalSize c.cache / 1024 / 1024),
      ("avg_hits_per_entry", totalHits c.cache / c.cache.len)]

/-- Get cache statistics, the items of a dictionary. -/
def ResultCache.getStats (c : ResultCache V) : List (String × ℚ) :=
  if c.cache.len = 0 then [("entries", 0), ("hit_rate", 0), ("total_size_mb", 0)]
  else
    let totalRequests := totalHits c.cache + c.cache.len
    [("entries", c.cache.len), ("total_hits", totalHits c.cache),
      ("hit_rate",
        if 0 < totalRequests then (totalHits c.cache : ℚ) / totalRequests * 100 else 0),
      ("total_size_mb", totalSize c.cache / 1024 / 1024)]

/-! ## Histories -/

namespace HybridCache

variable (sha : Digest)

/-- The call looks for this key in the result cache. -/
def Looks (key : String) : CacheOp V → Bool
  | .getResult modelId inputData => ResultCache.getKey sha modelId inputData = key
  | .getEmbedding _ => false
  | .setResult _ _ _ => false
  | .invalidateModel _ => false

/-- A call of `get_result`. -/
def isLookup : CacheOp V → Bool
  | .getResult _ _ => true
  | .getEmbedding _ => false
  | .setResult _ _ _ => false
  | .invalidateModel _ => false

/-- The result of a call of `get_result` in the result cache, if it is there. -/
def emitFound (c : HybridCache V S) : CacheOp V → List V
  | .getResult modelId inputData =>
    ((c.resultCache.get sha modelId inputData).1).toList
  | .getEmbedding _ => []
  | .setResult _ _ _ => []
  | .invalidateModel _ => []

variable [Cacheable V]

/-- The call stores a result under this key. -/
def Stores (key : String) : CacheOp V → Bool
  | .setResult modelId inputData result =>
    ResultCache.getKey sha modelId inputData = key ∧ (Cacheable.dumpSize result).isOk
  | .getEmbedding _ => false
  | .getResult _ _ => false
  | .invalidateModel _ => false

/-- The lookups of a key since a result was stored under it. -/
def hitsSince (key : String) (tr : List (CacheOp V)) : ℕ :=
  (tr.rtakeWhile fun op => !Stores sha key op).countP (Looks sha key)

theorem hitsSince_snoc (key : String) (tr : List (CacheOp V)) (op : CacheOp V) :
    hitsSince sha key (tr ++ [op]) =
      if Stores sha key op then 0 else hitsSince sha key tr + if Looks sha key op then 1 else 0 := by
  unfold hitsSince
  rw [List.rtakeWhile_concat]
  cases Stores sha key op with
  | true => rfl
  | false =>
    simp only [Bool.not_false, if_true, Bool.false_eq_true, if_false]
    rw [List.countP_append, List.countP_singleton]

end HybridCache

/-! ## What a call does to the counts -/

section Counts

variable {cache : Dict String (CacheEntry V)} {key : String} {entry : CacheEntry V}

/-- A hit is counted once. -/
theorem totalHits_set_hit (h : cache.get? key = some entry) :
    totalHits (cache.set key entry.hit) = totalHits cache + 1 := by
  have hset := Dict.sum_set CacheEntry.hitCount cache key entry.hit
  have herase := Dict.sum_erase CacheEntry.hitCount cache key
  rw [h, Option.elim_some] at herase
  unfold totalHits CacheEntry.hit at *
  dsimp only at hset
  omega

/-- A new entry takes the place of the hits of the old one. -/
theorem totalHits_set_new (h : entry.hitCount = 0) :
    totalHits (cache.set key entry) ≤ totalHits cache := by
  have hset := Dict.sum_set CacheEntry.hitCount cache key entry
  have herase := Dict.sum_erase CacheEntry.hitCount cache key
  unfold totalHits
  omega

theorem totalHits_eraseAll (cache : Dict String (CacheEntry V)) (keys : List String) :
    totalHits (cache.eraseAll keys) ≤ totalHits cache := by
  unfold Dict.eraseAll
  induction keys generalizing cache with
  | nil => exact le_rfl
  | cons k keys ih =>
    have herase := Dict.sum_erase CacheEntry.hitCount cache k
    rw [List.foldl_cons]
    refine (ih (cache.erase k)).trans ?_
    unfold totalHits
    omega

variable [LinearOrder S] [Zero S] (similarity : List ℚ → List ℚ → S)

/-- A lookup in the semantic cache is at most one hit. -/
theorem totalHits_semantic_get (c : SemanticCache V S) (query : String) :
    totalHits (c.get similarity query).2.cache ≤ totalHits c.cache + 1 := by
  unfold SemanticCache.get
  dsimp only
  split
  · exact Nat.le_succ _
  · split_ifs
    · exact Nat.le_succ _
    · split
      · exact Nat.le_succ _
      · next h => exact (totalHits_set_hit h).le

end Counts

theorem totalHits_semantic_set [Cacheable V] (sha : Digest) (c : SemanticCache V S) (query : String)
    (result : V) : totalHits (c.set sha query result).2.cache ≤ totalHits c.cache := by
  unfold SemanticCache.set
  dsimp only
  split
  · exact le_rfl
  · exact totalHits_set_new rfl

namespace ResultCache

variable {sha : Digest} {c : ResultCache V} {modelId : String} {inputData : Json}

/-- A lookup of a key that is not there. -/
theorem get_of_none (h : c.cache.get? (getKey sha modelId inputData) = none) :
    c.get sha modelId inputData = (none, c) := by
  unfold ResultCache.get
  dsimp only
  rw [h]

/-- A lookup of a key that is there counts a hit. -/
theorem get_of_some {entry : CacheEntry V}
    (h : c.cache.get? (getKey sha modelId inputData) = some entry) :
    c.get sha modelId inputData = (some entry.value,
      { c with cache := c.cache.set (getKey sha modelId inputData) entry.hit }) := by
  unfold ResultCache.get
  dsimp only
  rw [h]

end ResultCache

namespace HybridCache

theorem getEmbedding_parts (sha : Digest) (c : HybridCache V S) (text : String) :
    (c.getEmbedding sha text).2.resultCache = c.resultCache ∧
      (c.getEmbedding sha text).2.semanticCache = c.semanticCache := by
  unfold getEmbedding
  split <;> exact ⟨rfl, rfl⟩

variable [Cacheable V] (sha : Digest)

theorem setResult_counts (c : HybridCache V S) (modelId : String) (inputData : Json) (result : V) :
    (c.setResult sha modelId inputData result).2.resultCache =
        (c.resultCache.set sha modelId inputData result).2 ∧
      totalHits (c.setResult sha modelId inputData result).2.semanticCache.cache ≤
        totalHits c.semanticCache.cache := by
  have hsemantic :=
    totalHits_semantic_set sha c.semanticCache (inputData.dumps false) result
  unfold setResult
  rcases hset : c.resultCache.set sha modelId inputData result with ⟨e | ⟨⟩, resultCache⟩
  · exact ⟨rfl, Nat.le_refl _⟩
  · exact ⟨rfl, hsemantic⟩

/-- The history of a cache and what it counted. -/
structure Counted (tr : List (CacheOp V)) (found : List V) (c : HybridCache V S) : Prop where
  hits : ∀ key entry, c.resultCache.cache.get? key = some entry →
    entry.hitCount = hitsSince sha key tr
  result : totalHits c.resultCache.cache ≤ found.length
  semantic : totalHits c.semanticCache.cache + found.countP Cacheable.truthy ≤ tr.countP isLookup

variable {sha} {tr : List (CacheOp V)} {found : List V} {c : HybridCache V S}

/-- A call that neither looks for a key nor stores anything. -/
theorem Counted.other (h : Counted sha tr found c) {op : CacheOp V} {c' : HybridCache V S}
    (hlooks : ∀ key, Looks sha key op = false) (hstores : ∀ key, Stores sha key op = false)
    (hlookup : isLookup op = false)
    (hresult : ∀ key entry, c'.resultCache.cache.get? key = some entry →
      c.resultCache.cache.get? key = some entry)
    (htotal : totalHits c'.resultCache.cache ≤ totalHits c.resultCache.cache)
    (hsemantic : totalHits c'.semanticCache.cache ≤ totalHits c.semanticCache.cache) :
    Counted sha (tr ++ [op]) found c' where
  hits key entry hentry := by
    rw [hitsSince_snoc, hlooks, hstores, h.hits key entry (hresult key entry hentry)]
    rfl
  result := htotal.trans h.result
  semantic := by
    have := h.semantic
    rw [List.countP_append, List.countP_singleton, hlookup, if_neg Bool.false_ne_true]
    omega

theorem Counted.setResult (h : Counted sha tr found c) (modelId : String) (inputData : Json)
    (result : V) :
    Counted sha (tr ++ [.setResult modelId inputData result]) found
      (c.setResult sha modelId inputData result).2 := by
  obtain ⟨hcache, hsemantic⟩ := setResult_counts sha c modelId inputData result
  cases hsize : Cacheable.dumpSize result with
  | error e =>
    rw [resultCache_set_of_error sha _ modelId hsize] at hcache
    have hstores (key : String) : Stores sha key (.setResult modelId inputData result) = false := by
      simp [Stores, hsize, Except.isOk, Except.toBool]
    refine h.other (fun _ => rfl) hstores rfl (fun key entry hentry => ?_) ?_ hsemantic
    · rwa [hcache] at hentry
    · rw [hcache]
  | ok size =>
    have hset : (c.resultCache.set sha modelId inputData result).2.cache =
        c.resultCache.cache.set (ResultCache.getKey sha modelId inputData)
          { key := ResultCache.getKey sha modelId inputData, value := result, sizeBytes := size } := by
      unfold ResultCache.set
      rw [hsize]
    have hstores (key : String) : Stores sha key (.setResult modelId inputData result) =
        decide (ResultCache.getKey sha modelId inputData = key) := by
      simp [Stores, hsize, Except.isOk, Except.toBool]
    constructor
    · intro key entry hentry
      rw [hcache, hset, Dict.get?_set] at hentry
      rw [hitsSince_snoc, hstores]
      by_cases hkey : key = ResultCache.getKey sha modelId inputData
      · rw [if_pos hkey] at hentry
        obtain rfl := Option.some.inj hentry
        rw [if_pos (decide_eq_true hkey.symm)]
      · rw [if_neg hkey] at hentry
        rw [decide_eq_false (Ne.symm hkey), h.hits key entry hentry]
        rfl
    · rw [hcache, hset]
      exact (totalHits_set_new rfl).trans h.result
    · have := h.semantic
      rw [List.countP_append, List.countP_singleton, show isLookup (.setResult modelId inputData
        result : CacheOp V) = false from rfl, if_neg Bool.false_ne_true]
      omega

/-- The hits of the result cache are the lookups of its keys since they were stored. -/
theorem totalHits_eq {c : HybridCache V S} (h : Counted sha tr found c) :
    totalHits c.resultCache.cache =
      (c.resultCache.cache.keys.map fun key => hitsSince sha key tr).sum := by
  unfold totalHits Dict.sum Dict.keys
  rw [List.map_map]
  refine congrArg List.sum (List.map_congr_left fun e he => ?_)
  exact h.hits e.1 e.2 (Dict.get?_eq_some.mpr he)

variable [LinearOrder S] [Zero S] (similarity : List ℚ → List ℚ → S)

/-- What a lookup does to the result cache and to the hits of the semantic cache. -/
theorem getResult_counts (sha : Digest) (c : HybridCache V S) (modelId : String) (inputData : Json) :
    (c.getResult similarity sha modelId inputData).2.resultCache =
        (c.resultCache.get sha modelId inputData).2 ∧
      totalHits (c.getResult similarity sha modelId inputData).2.semanticCache.cache ≤
        totalHits c.semanticCache.cache +
          if ((c.resultCache.get sha modelId inputData).1.filter Cacheable.truthy).isSome
          then 0 else 1 := by
  have hsemantic := totalHits_semantic_get similarity c.semanticCache (inputData.dumps false)
  unfold getResult
  rcases hget : c.resultCache.get sha modelId inputData with ⟨result, resultCache⟩
  dsimp only
  cases hfound : result.filter Cacheable.truthy with
  | some result => exact ⟨rfl, Nat.le_refl _⟩
  | none =>
    dsimp only
    rcases hsem : c.semanticCache.get similarity (inputData.dumps false) with ⟨found, semanticCache⟩
    rw [hsem] at hsemantic
    rcases found with e | (_ | ⟨result, score⟩) <;> exact ⟨rfl, hsemantic⟩

theorem Counted.getResult (h : Counted sha tr found c) (modelId : String) (inputData : Json) :
    Counted sha (tr ++ [.getResult modelId inputData])
      (found ++ emitFound sha c (.getResult modelId inputData))
      (c.getResult similarity sha modelId inputData).2 := by
  obtain ⟨hcache, hsemantic⟩ := getResult_counts similarity sha c modelId inputData
  have hlooks (key : String) (entry : CacheEntry V)
      (hentry : c.resultCache.cache.get? key = some entry) :
      hitsSince sha key (tr ++ [.getResult modelId inputData]) =
        entry.hitCount + if ResultCache.getKey sha modelId inputData = key then 1 else 0 := by
    rw [hitsSince_snoc, h.hits key entry hentry]
    simp [Stores, Looks]
  have hlookups : List.countP isLookup (tr ++ [.getResult modelId inputData]) =
      tr.countP isLookup + 1 := by
    rw [List.countP_append]
    rfl
  cases hget : c.resultCache.cache.get? (ResultCache.getKey sha modelId inputData) with
  | none =>
    have hmiss := ResultCache.get_of_none hget
    have hfound : emitFound sha c (.getResult modelId inputData) = [] := by
      rw [emitFound, hmiss]
      rfl
    rw [hmiss] at hcache hsemantic
    rw [hfound, List.append_nil]
    constructor
    · intro key entry hentry
      rw [hcache] at hentry
      have hne : ResultCache.getKey sha modelId inputData ≠ key := by
        rintro rfl
        rw [hget] at hentry
        cases hentry
      rw [hlooks key entry hentry, if_neg hne, Nat.add_zero]
    · rw [hcache]
      exact h.result
    · have := h.semantic
      rw [hlookups]
      simp only [Option.filter_none, Option.isSome_none, Bool.false_eq_true, if_false] at hsemantic
      omega
  | some old =>
    have hhit := ResultCache.get_of_some hget
    have hfound : emitFound sha c (.getResult modelId inputData) = [old.value] := by
      rw [emitFound, hhit]
      rfl
    rw [hhit] at hcache hsemantic
    rw [hfound]
    constructor
    · intro key entry hentry
      rw [hcache] at hentry
      dsimp only at hentry
      rw [Dict.get?_set] at hentry
      by_cases hkey : key = ResultCache.getKey sha modelId inputData
      · rw [if_pos hkey] at hentry
        obtain rfl := Option.some.inj hentry
        rw [hlooks key old (hkey ▸ hget), if_pos hkey.symm]
        rfl
      · rw [if_neg hkey] at hentry
        rw [hlooks key entry hentry, if_neg (Ne.symm hkey), Nat.add_zero]
    · rw [hcache, List.length_append, List.length_singleton]
      exact (totalHits_set_hit hget).trans_le (Nat.add_le_add_right h.result 1)
    · have := h.semantic
      rw [hlookups, List.countP_append, List.countP_singleton]
      cases htruthy : Cacheable.truthy old.value <;>
        simp [Option.filter_some, htruthy] at hsemantic ⊢ <;> omega

theorem counted_run (threshold : S) (similarity : List ℚ → List ℚ → S) (sha : Digest)
    (tr : List (CacheOp V)) :
    Counted sha tr (log (step similarity sha) (emitFound sha) (init threshold) tr)
      (run (step similarity sha) (init threshold) tr) := by
  induction tr using List.reverseRecOn with
  | nil =>
    refine ⟨fun key entry hentry => ?_, Nat.le_refl 0, Nat.le_refl 0⟩
    cases hentry
  | append_singleton tr op ih =>
    rw [run_snoc, log_snoc]
    cases op with
    | getEmbedding text =>
      rw [show emitFound sha _ (.getEmbedding text) = [] from rfl, List.append_nil]
      obtain ⟨hresult, hsemantic⟩ := getEmbedding_parts sha
        (run (step similarity sha) (init threshold) tr) text
      refine ih.other (fun _ => rfl) (fun _ => rfl) rfl (fun key entry hentry => ?_) ?_ ?_
      · rwa [step, hresult] at hentry
      · rw [step, hresult]
      · rw [step, hsemantic]
    | getResult modelId inputData => exact ih.getResult similarity modelId inputData
    | setResult modelId inputData result =>
      rw [show emitFound sha _ (.setResult modelId inputData result) = [] from rfl,
        List.append_nil]
      exact ih.setResult modelId inputData result
    | invalidateModel modelId =>
      rw [show emitFound sha _ (.invalidateModel modelId) = [] from rfl, List.append_nil]
      refine ih.other (fun _ => rfl) (fun _ => rfl) rfl (fun key entry hentry => ?_)
        (totalHits_eraseAll _ _) (Nat.le_refl _)
      have hkept : (Dict.eraseAll _ _).get? key = some entry := hentry
      rw [Dict.get?_eraseAll] at hkept
      split_ifs at hkept
      exact hkept

/-- **Statistics.** After any history of a cache: an entry of the result cache has as many hits as its
key was looked up since it was stored last, and the statistics add these up. They are at most the
calls of `get_result` that found a result there. With the hits of the semantic cache they are at most
the calls of `get_result` and, once more, those that found a result that counts as false. -/
theorem stats_run (threshold : S) (similarity : List ℚ → List ℚ → S) (sha : Digest)
    (tr : List (CacheOp V)) :
    let c := run (step similarity sha) (init threshold) tr
    let found := log (step similarity sha) (emitFound sha) (init threshold) tr
    let hits := (c.resultCache.cache.keys.map fun key => hitsSince sha key tr).sum
    (∀ key entry, c.resultCache.cache.get? key = some entry →
      entry.hitCount = hitsSince sha key tr) ∧
    c.resultCache.getStats =
      (if c.resultCache.cache.len = 0 then [("entries", 0), ("hit_rate", 0), ("total_size_mb", 0)]
      else
        [("entries", (c.resultCache.cache.len : ℚ)), ("total_hits", (hits : ℚ)),
          ("hit_rate", (hits : ℚ) / (hits + c.resultCache.cache.len) * 100),
          ("total_size_mb", (totalSize c.resultCache.cache : ℚ) / 1024 / 1024)]) ∧
    hits ≤ found.length ∧
    hits + totalHits c.semanticCache.cache ≤
      tr.countP isLookup + found.countP fun v => !Cacheable.truthy v := by
  intro c found hits
  have h : Counted sha tr found c := counted_run threshold similarity sha tr
  have htotal : totalHits c.resultCache.cache = hits := totalHits_eq h
  refine ⟨h.hits, ?_, htotal ▸ h.result, ?_⟩
  · unfold ResultCache.getStats
    rw [htotal]
    by_cases hempty : c.resultCache.cache.len = 0
    · rw [if_pos hempty, if_pos hempty]
    · rw [if_neg hempty, if_neg hempty]
      dsimp only
      rw [if_pos (by omega), Nat.cast_add]
  · have hresult := h.result
    have hsemantic := h.semantic
    have hsplit := List.length_eq_countP_add_countP Cacheable.truthy (l := found)
    rw [htotal] at hresult
    simp only [Bool.not_eq_true, Bool.decide_eq_false] at hsplit
    omega

end HybridCache

end PyStreamAI
