import Mathlib.Analysis.Real.Sqrt
import PyStreamAI.Py.Basic
import PyStreamAI.Py.Dict
import PyStreamAI.Py.Json

/-!
# The caches

The hybrid cache holds a result under two keys. The result cache has the digest of model, input
and version, the semantic cache the digest of the input alone, and it answers with the stored
query whose embedding is most similar. Similarities are values of a linear order `S`, those of
the code are the exact `cosine`.
-/

open Py

namespace PyStreamAI

/-! ## What the caches rely on -/

/-- `sha256(text.encode()).hexdigest()`, taken to be free of collisions. -/
structure Digest where
  hexdigest : String → String
  injective : Function.Injective hexdigest
  ne_empty : ∀ text, hexdigest text ≠ ""

instance : Inhabited Digest where
  default :=
    { hexdigest := fun text => "#" ++ text
      injective := fun _ _ h => by simpa using h
      ne_empty := fun text h => by simpa using congrArg String.toList h }

/-- What the caches ask of a result: its truth value, and the length in bytes of
`json.dumps(result, default=str)`, which may raise. -/
class Cacheable (V : Type) where
  truthy : V → Bool
  dumpSize : V → Except Error ℕ

/-- A result that is JSON itself. -/
instance : Cacheable Json where
  truthy := Json.truthy
  dumpSize j := .ok (j.dumps false).length

/-- Entry in cache. -/
structure CacheEntry (V : Type) where
  key : String
  value : V
  embedding : Option (List ℚ) := none
  hitCount : ℕ := 0
  sizeBytes : ℕ := 0

variable {V S : Type}

/-- `entry.hit_count += 1`. -/
def CacheEntry.hit (entry : CacheEntry V) : CacheEntry V :=
  { entry with hitCount := entry.hitCount + 1 }

/-! ## The semantic cache -/

/-- Get embedding for text. -/
def embed (text : String) : List ℚ := (text.toList.take 10).map fun c => (c.toNat : ℚ) / 255

/-- Calculate embedding similarity (cosine). -/
noncomputable def cosine (emb1 emb2 : List ℚ) : ℝ :=
  if emb1 = [] ∨ emb2 = [] then 0
  else
    let dotProduct : ℚ := (List.zipWith (· * ·) emb1 emb2).sum
    let norm1 := √((emb1.map fun a => a * a).sum : ℚ)
    let norm2 := √((emb2.map fun b => b * b).sum : ℚ)
    if norm1 = 0 ∨ norm2 = 0 then 0 else dotProduct / (norm1 * norm2)

/-- Cache based on semantic similarity. -/
structure SemanticCache (V S : Type) where
  similarityThreshold : S
  cache : Dict String (CacheEntry V) := ∅
  embeddings : List (String × List ℚ) := []

section Best

variable [LinearOrder S]

/-- The first of the best keys among `embeddings` that beats `best` and reaches the threshold,
with its score. -/
def bestMatch {κ : Type} (threshold : S) (score : List ℚ → S) (best : Option κ × S) :
    List (κ × List ℚ) → Option κ × S
  | [] => best
  | (key, embedding) :: embeddings =>
    bestMatch threshold score
      (if best.2 < score embedding ∧ threshold ≤ score embedding then (some key, score embedding)
        else best)
      embeddings

/-- The best match is a key of the embeddings, unless it is the one before them. -/
theorem bestMatch_mem {κ : Type} {threshold : S} {score : List ℚ → S} {best : Option κ × S}
    {embeddings : List (κ × List ℚ)} {key : κ}
    (h : (bestMatch threshold score best embeddings).1 = some key) :
    best.1 = some key ∨ key ∈ embeddings.map Prod.fst := by
  induction embeddings generalizing best with
  | nil => exact Or.inl h
  | cons e embeddings ih =>
    obtain ⟨k, embedding⟩ := e
    rcases ih h with hbest | hmem
    · split_ifs at hbest
      · rw [← Option.some.inj hbest]
        exact Or.inr List.mem_cons_self
      · exact Or.inl hbest
    · exact Or.inr (List.mem_cons_of_mem _ hmem)

/-- Renaming the keys renames the best match. -/
theorem bestMatch_map {κ κ' : Type} (f : κ → κ') (threshold : S) (score : List ℚ → S)
    (best : Option κ × S) (embeddings : List (κ × List ℚ)) :
    bestMatch threshold score (best.1.map f, best.2) (embeddings.map fun e => (f e.1, e.2)) =
      ((bestMatch threshold score best embeddings).1.map f,
        (bestMatch threshold score best embeddings).2) := by
  induction embeddings generalizing best with
  | nil => rfl
  | cons e embeddings ih =>
    obtain ⟨k, embedding⟩ := e
    rw [List.map_cons, bestMatch, bestMatch, ← ih]
    congr 1
    split_ifs <;> rfl

end Best

namespace SemanticCache

variable [LinearOrder S] [Zero S] (similarity : List ℚ → List ℚ → S)

/-- Get cached value for similar query, with its similarity. -/
def get (c : SemanticCache V S) (query : String) : Res (SemanticCache V S) (Option (V × S)) :=
  let queryEmbedding := embed query
  match bestMatch c.similarityThreshold (similarity queryEmbedding) (none, 0) c.embeddings with
  | (none, _) => (.ok none, c)
  | (some key, score) =>
    if key = "" then (.ok none, c)
    else
      match c.cache.get? key with
      | none => (.error ⟨"KeyError", pyRepr key⟩, c)
      | some entry =>
        (.ok (some (entry.value, score)), { c with cache := c.cache.set key entry.hit })

variable [Cacheable V]

/-- Cache result for query. -/
def set (sha : Digest) (c : SemanticCache V S) (query : String) (result : V) :
    Res (SemanticCache V S) Unit :=
  let embedding := embed query
  let key := sha.hexdigest query
  match Cacheable.dumpSize result with
  | .error e => (.error e, c)
  | .ok size =>
    (.ok (), { c with
      cache := c.cache.set key
        { key, value := result, embedding := some embedding, sizeBytes := size }
      embeddings := c.embeddings ++ [(key, embedding)] })

end SemanticCache

/-! ## The embedding cache -/

/-- Cache embeddings to avoid recomputation. -/
structure EmbeddingCache where
  maxCacheSizeMb : ℤ := 500
  cache : Dict String (List ℚ) := ∅
  totalSizeBytes : ℕ := 0

namespace EmbeddingCache

/-- Get cached embedding. -/
def get (sha : Digest) (c : EmbeddingCache) (text : String) : Option (List ℚ) :=
  c.cache.get? (sha.hexdigest text)

/-- Evict old entries. -/
def evict (c : EmbeddingCache) : EmbeddingCache :=
  let cache := c.cache.lastItems 100
  { c with cache, totalSizeBytes := (cache.entries.map fun e => e.2.length * 8).sum }

/-- Cache embedding. -/
def set (sha : Digest) (c : EmbeddingCache) (text : String) (embedding : List ℚ) :
    EmbeddingCache :=
  let embeddingSizeBytes := embedding.length * 8
  let c := if c.maxCacheSizeMb * 1024 * 1024 < c.totalSizeBytes + embeddingSizeBytes then c.evict
    else c
  { c with
    cache := c.cache.set (sha.hexdigest text) embedding
    totalSizeBytes := c.totalSizeBytes + embeddingSizeBytes }

end EmbeddingCache

/-! ## The result cache -/

/-- Cache inference results with versioning. -/
structure ResultCache (V : Type) where
  cache : Dict String (CacheEntry V) := ∅
  keysByModel : Dict String (List String) := ∅

namespace ResultCache

/-- The text a key is the digest of. -/
def keyText (modelId : String) (inputData : Json) (version : String) : String :=
  modelId ++ ":" ++ inputData.dumps true ++ ":" ++ version

/-- Generate cache key. -/
def getKey (sha : Digest) (modelId : String) (inputData : Json) (version : String := "v1") :
    String :=
  sha.hexdigest (keyText modelId inputData version)

/-- Get cached result. -/
def get (sha : Digest) (c : ResultCache V) (modelId : String) (inputData : Json)
    (version : String := "v1") : Option V × ResultCache V :=
  let key := getKey sha modelId inputData version
  match c.cache.get? key with
  | some entry => (some entry.value, { c with cache := c.cache.set key entry.hit })
  | none => (none, c)

/-- Cache result. -/
def set [Cacheable V] (sha : Digest) (c : ResultCache V) (modelId : String) (inputData : Json)
    (result : V) (version : String := "v1") : Res (ResultCache V) Unit :=
  let key := getKey sha modelId inputData version
  match Cacheable.dumpSize result with
  | .error e => (.error e, c)
  | .ok size =>
    let keys := c.keysByModel.getD modelId []
    (.ok (), { c with
      cache := c.cache.set key { key, value := result, sizeBytes := size }
      keysByModel := c.keysByModel.set modelId (if key ∈ keys then keys else keys ++ [key]) })

/-- Invalidate all results for model. -/
def invalidate (c : ResultCache V) (modelId : String) : ResultCache V :=
  let toRemove := c.keysByModel.getD modelId []
  { c with
    keysByModel := c.keysByModel.erase modelId
    cache := c.cache.eraseAll toRemove }

end ResultCache

/-! ## The hybrid cache -/

/-- Combine semantic, embedding, and result caching. -/
structure HybridCache (V S : Type) where
  semanticCache : SemanticCache V S
  embeddingCache : EmbeddingCache
  resultCache : ResultCache V

/-- Unpacking `None` into two names. -/
def unpackNone : Error := ⟨"TypeError", "cannot unpack non-iterable NoneType object"⟩

/-- A call on the hybrid cache. -/
inductive CacheOp (V : Type)
  | getEmbedding (text : String)
  | getResult (modelId : String) (inputData : Json)
  | setResult (modelId : String) (inputData : Json) (result : V)
  | invalidateModel (modelId : String)

namespace HybridCache

/-- The empty cache. -/
def init (similarityThreshold : S) : HybridCache V S :=
  { semanticCache := { similarityThreshold }, embeddingCache := {}, resultCache := {} }

/-- Get embedding with caching. -/
def getEmbedding (sha : Digest) (c : HybridCache V S) (text : String) :
    List ℚ × HybridCache V S :=
  match (c.embeddingCache.get sha text).filter (· ≠ []) with
  | some cached => (cached, c)
  | none =>
    let embedding := embed text
    (embedding, { c with embeddingCache := c.embeddingCache.set sha text embedding })

variable [LinearOrder S] [Zero S] (similarity : List ℚ → List ℚ → S) [Cacheable V]

/-- Get result with semantic cache fallback. -/
def getResult (sha : Digest) (c : HybridCache V S) (modelId : String) (inputData : Json) :
    Res (HybridCache V S) (Option V) :=
  let (result, resultCache) := c.resultCache.get sha modelId inputData
  let c := { c with resultCache }
  match result.filter Cacheable.truthy with
  | some result => (.ok (some result), c)
  | none =>
    let query := inputData.dumps false
    let (found, semanticCache) := c.semanticCache.get similarity query
    let c := { c with semanticCache }
    match found with
    | .error e => (.error e, c)
    | .ok none => (.error unpackNone, c)
    | .ok (some (result, _)) => (.ok (if Cacheable.truthy result then some result else none), c)

/-- Cache result. -/
def setResult (sha : Digest) (c : HybridCache V S) (modelId : String) (inputData : Json)
    (result : V) : Res (HybridCache V S) Unit :=
  let (set, resultCache) := c.resultCache.set sha modelId inputData result
  let c := { c with resultCache }
  match set with
  | .error e => (.error e, c)
  | .ok () =>
    let query := inputData.dumps false
    let (set, semanticCache) := c.semanticCache.set sha query result
    (set, { c with semanticCache })

/-- Invalidate all caches for model. -/
def invalidateModel (c : HybridCache V S) (modelId : String) : HybridCache V S :=
  { c with resultCache := c.resultCache.invalidate modelId }

/-- The cache after a call, also one that raised. -/
def step (sha : Digest) (c : HybridCache V S) : CacheOp V → HybridCache V S
  | .getEmbedding text => (c.getEmbedding sha text).2
  | .getResult modelId inputData => (c.getResult similarity sha modelId inputData).2
  | .setResult modelId inputData result => (c.setResult sha modelId inputData result).2
  | .invalidateModel modelId => c.invalidateModel modelId

end HybridCache

end PyStreamAI
