import PyStreamAI.CachingIsolation

/-!
# Lookups in the semantic cache

The loop over the stored embeddings finds the first of the most similar ones (`bestMatch_cases`).
Every key in the list of embeddings is a key of the dict as well, so a lookup never fails, and it
answers with what is cached under that key (`SemanticCache.get_cases`).
-/

open Py Machine

namespace PyStreamAI

/-! ## First maxima -/

section FirstMax

variable {α S : Type*} [LinearOrder S] {score : α → S} {es : List α} {e e' : α}

/-- `e` is the first element of the greatest score. -/
def IsFirstMax (score : α → S) (es : List α) (e : α) : Prop :=
  ∃ before after, es = before ++ e :: after ∧ (∀ x ∈ before, score x < score e) ∧
    ∀ x ∈ after, score x ≤ score e

theorem IsFirstMax.mem (h : IsFirstMax score es e) : e ∈ es := by
  obtain ⟨before, after, rfl, -, -⟩ := h
  exact List.mem_append_right _ List.mem_cons_self

theorem IsFirstMax.le (h : IsFirstMax score es e) {x : α} (hx : x ∈ es) : score x ≤ score e := by
  obtain ⟨before, after, rfl, hbefore, hafter⟩ := h
  rcases List.mem_append.mp hx with hx | hx
  · exact (hbefore x hx).le
  · rcases List.mem_cons.mp hx with rfl | hx
    · exact le_rfl
    · exact hafter x hx

theorem IsFirstMax.unique (h : IsFirstMax score es e) (h' : IsFirstMax score es e') : e = e' := by
  obtain ⟨before, after, rfl, hbefore, -⟩ := id h
  obtain ⟨before', after', hes, hbefore', -⟩ := id h'
  have hle := h.le h'.mem
  have hle' := h'.le h.mem
  rcases List.append_eq_append_iff.mp hes with ⟨us, hb, hu⟩ | ⟨us, hb, hu⟩
  · cases us with
    | nil => exact (List.cons.inj hu).1
    | cons u us =>
      obtain rfl := (List.cons.inj hu).1
      refine absurd hle (not_le_of_gt (hbefore' e ?_))
      rw [hb]
      exact List.mem_append_right _ List.mem_cons_self
  · cases us with
    | nil => exact (List.cons.inj hu).1.symm
    | cons u us =>
      obtain rfl := (List.cons.inj hu).1
      refine absurd hle' (not_le_of_gt (hbefore e' ?_))
      rw [hb]
      exact List.mem_append_right _ List.mem_cons_self

/-- An element of a smaller score in front of the others. -/
theorem IsFirstMax.cons {x : α} (h : IsFirstMax score es e) (hx : score x < score e) :
    IsFirstMax score (x :: es) e := by
  obtain ⟨before, after, rfl, hbefore, hafter⟩ := h
  refine ⟨x :: before, after, rfl, fun y hy => ?_, hafter⟩
  rcases List.mem_cons.mp hy with rfl | hy
  · exact hx
  · exact hbefore y hy

theorem isFirstMax_map {β : Type*} {f : β → α} {xs : List β} :
    IsFirstMax score (xs.map f) e ↔ ∃ x, f x = e ∧ IsFirstMax (score ∘ f) xs x := by
  constructor
  · rintro ⟨before, after, hes, hbefore, hafter⟩
    obtain ⟨xs₁, ys, rfl, rfl, hys⟩ := List.map_eq_append_iff.mp hes
    obtain ⟨x, xs₂, rfl, rfl, rfl⟩ := List.map_eq_cons_iff.mp hys
    exact ⟨x, rfl, xs₁, xs₂, rfl, List.forall_mem_map.mp hbefore, List.forall_mem_map.mp hafter⟩
  · rintro ⟨x, rfl, xs₁, xs₂, rfl, hbefore, hafter⟩
    exact ⟨xs₁.map f, xs₂.map f, by rw [List.map_append, List.map_cons],
      List.forall_mem_map.mpr hbefore, List.forall_mem_map.mpr hafter⟩

end FirstMax

/-! ## The loop -/

section Loop

variable {κ S : Type} [LinearOrder S]

/-- The loop ends with what it started from, when nothing beats that and reaches the threshold,
and with the first maximum otherwise. -/
theorem bestMatch_cases (threshold : S) (score : List ℚ → S) (best : Option κ × S)
    (es : List (κ × List ℚ)) :
    (bestMatch threshold score best es = best ∧
      ∀ e ∈ es, ¬ (best.2 < score e.2 ∧ threshold ≤ score e.2)) ∨
    ∃ e, IsFirstMax (fun e => score e.2) es e ∧ best.2 < score e.2 ∧ threshold ≤ score e.2 ∧
      bestMatch threshold score best es = (some e.1, score e.2) := by
  induction es generalizing best with
  | nil => exact Or.inl ⟨rfl, fun e he => by cases he⟩
  | cons x es ih =>
    obtain ⟨key, embedding⟩ := x
    rw [bestMatch]
    by_cases htake : best.2 < score embedding ∧ threshold ≤ score embedding
    · rw [if_pos htake]
      refine Or.inr ?_
      rcases ih (some key, score embedding) with ⟨heq, hnone⟩ | ⟨e, hmax, hlt, hthr, heq⟩
      · refine ⟨(key, embedding), ⟨[], es, rfl, fun x hx => ?_, fun x hx => ?_⟩, htake.1, htake.2,
          heq⟩
        · cases hx
        · by_contra hgt
          have hgt := lt_of_not_ge hgt
          exact hnone x hx ⟨hgt, htake.2.trans hgt.le⟩
      · exact ⟨e, hmax.cons hlt, htake.1.trans hlt, hthr, heq⟩
    · rw [if_neg htake]
      rcases ih best with ⟨heq, hnone⟩ | ⟨e, hmax, hlt, hthr, heq⟩
      · refine Or.inl ⟨heq, fun x hx => ?_⟩
        rcases List.mem_cons.mp hx with rfl | hx
        · exact htake
        · exact hnone x hx
      · refine Or.inr ⟨e, hmax.cons ?_, hlt, hthr, heq⟩
        by_contra hle
        have hle := not_lt.mp hle
        exact htake ⟨hlt.trans_le hle, hthr.trans hle⟩

end Loop

/-! ## Histories of the semantic cache -/

variable {V S : Type} [Cacheable V]

/-- A call on the semantic cache. -/
inductive SemanticOp (V : Type)
  | get (query : String)
  | set (query : String) (result : V)

/-- The query and the result a call stores. A result without a JSON dump raises before anything is
stored. -/
def SemanticOp.stored? : SemanticOp V → Option (String × V)
  | .set query result =>
    match Cacheable.dumpSize result with
    | .ok _ => some (query, result)
    | .error _ => none
  | .get _ => none

/-- The queries stored with their results, in order. -/
def storedPairs (tr : List (SemanticOp V)) : List (String × V) := tr.filterMap SemanticOp.stored?

/-- The result stored last for a query. -/
def lastResult (query : String) (tr : List (SemanticOp V)) : Option V :=
  (((storedPairs tr).filter fun p => p.1 = query).getLast?).map Prod.snd

theorem storedPairs_snoc (tr : List (SemanticOp V)) (op : SemanticOp V) :
    storedPairs (tr ++ [op]) = storedPairs tr ++ op.stored?.toList := by
  unfold storedPairs
  rw [List.filterMap_append]
  cases h : op.stored? <;> simp [h]

theorem lastResult_snoc_of_stored {op : SemanticOp V} {p : String × V} (h : op.stored? = some p)
    (query : String) (tr : List (SemanticOp V)) :
    lastResult query (tr ++ [op]) = if p.1 = query then some p.2 else lastResult query tr := by
  unfold lastResult
  rw [storedPairs_snoc, h, List.filter_append]
  split_ifs with hq <;> simp [hq]

theorem lastResult_snoc_of_none {op : SemanticOp V} (h : op.stored? = none) (query : String)
    (tr : List (SemanticOp V)) : lastResult query (tr ++ [op]) = lastResult query tr := by
  unfold lastResult
  rw [storedPairs_snoc, h, Option.toList_none, List.append_nil]

theorem exists_lastResult {query : String} {v : V} {tr : List (SemanticOp V)}
    (h : (query, v) ∈ storedPairs tr) : ∃ last, lastResult query tr = some last := by
  rw [← Option.isSome_iff_exists, lastResult, Option.isSome_map, List.getLast?_isSome]
  exact List.ne_nil_of_mem (List.mem_filter.mpr ⟨h, by simp⟩)

section Runs

variable [LinearOrder S] [Zero S] (similarity : List ℚ → List ℚ → S) (sha : Digest) (threshold : S)

/-- The cache after a call, also one that raised. -/
def SemanticCache.step (c : SemanticCache V S) : SemanticOp V → SemanticCache V S
  | .get query => (c.get similarity query).2
  | .set query result => (c.set sha query result).2

/-- The semantic cache holds what the history left. -/
structure SemanticTracks (tr : List (SemanticOp V)) (c : SemanticCache V S) : Prop where
  threshold_eq : c.similarityThreshold = threshold
  embeddings : c.embeddings = (storedPairs tr).map fun p => (sha.hexdigest p.1, embed p.1)
  cached : ∀ query, values c.cache (sha.hexdigest query) = lastResult query tr

variable {sha threshold}

theorem SemanticTracks.step {tr : List (SemanticOp V)} {c : SemanticCache V S}
    (h : SemanticTracks sha threshold tr c) (op : SemanticOp V) :
    SemanticTracks sha threshold (tr ++ [op]) (c.step similarity sha op) := by
  have hsame : ∀ c' : SemanticCache V S, c'.similarityThreshold = c.similarityThreshold →
      c'.embeddings = c.embeddings → values c'.cache = values c.cache → op.stored? = none →
      SemanticTracks sha threshold (tr ++ [op]) c' := by
    intro c' ht he hc hop
    refine ⟨ht.trans h.threshold_eq, ?_, fun query => ?_⟩
    · rw [he, h.embeddings, storedPairs_snoc, hop, Option.toList_none, List.append_nil]
    · rw [hc, h.cached, lastResult_snoc_of_none hop]
  cases op with
  | get query =>
    obtain ⟨ht, he, hc⟩ := semanticCache_get_snd similarity c query
    exact hsame _ ht he hc rfl
  | set query result =>
    show SemanticTracks sha threshold _ (c.set sha query result).2
    unfold SemanticCache.set
    cases hsize : Cacheable.dumpSize result with
    | error e => exact hsame c rfl rfl rfl (by simp only [SemanticOp.stored?, hsize])
    | ok size =>
      have hop : (SemanticOp.set query result).stored? = some (query, result) := by
        simp only [SemanticOp.stored?, hsize]
      refine ⟨h.threshold_eq, ?_, fun q => ?_⟩
      · rw [storedPairs_snoc, hop, Option.toList_some, List.map_append, ← h.embeddings]
        rfl
      · rw [values_set, lastResult_snoc_of_stored hop, h.cached]
        refine if_congr ?_ rfl rfl
        exact ⟨fun he => (sha.injective he).symm, fun he => congrArg sha.hexdigest he.symm⟩

variable (sha threshold)

theorem semanticTracks_run (tr : List (SemanticOp V)) :
    SemanticTracks sha threshold tr
      (run (SemanticCache.step similarity sha) { similarityThreshold := threshold } tr) :=
  run_history { threshold_eq := rfl, embeddings := rfl, cached := fun _ => rfl }
    (fun _ _ h op => h.step similarity op) tr

variable {sha threshold}

omit [LinearOrder S] [Zero S] in
/-- Every key of the list of embeddings is cached, and is not empty. -/
theorem SemanticTracks.exists_entry {tr : List (SemanticOp V)} {c : SemanticCache V S}
    (h : SemanticTracks sha threshold tr c) {e : String × List ℚ} (he : e ∈ c.embeddings) :
    e.1 ≠ "" ∧ ∃ entry, c.cache.get? e.1 = some entry := by
  rw [h.embeddings] at he
  obtain ⟨p, hp, rfl⟩ := List.mem_map.mp he
  refine ⟨sha.ne_empty p.1, ?_⟩
  obtain ⟨last, hlast⟩ := exists_lastResult hp
  have hcached := h.cached p.1
  rw [hlast] at hcached
  obtain ⟨entry, hentry, -⟩ := Option.map_eq_some_iff.mp hcached
  exact ⟨entry, hentry⟩

/-- A lookup finds nothing and changes nothing, or finds the first maximum and counts the hit. -/
theorem SemanticTracks.get_cases {tr : List (SemanticOp V)} {c : SemanticCache V S}
    (h : SemanticTracks sha threshold tr c) (query : String) :
    (c.get similarity query = (.ok none, c) ∧
      ∀ e ∈ c.embeddings,
        ¬ (0 < similarity (embed query) e.2 ∧ threshold ≤ similarity (embed query) e.2)) ∨
    ∃ e entry, IsFirstMax (fun e => similarity (embed query) e.2) c.embeddings e ∧
      0 < similarity (embed query) e.2 ∧ threshold ≤ similarity (embed query) e.2 ∧
      c.cache.get? e.1 = some entry ∧
      c.get similarity query = (.ok (some (entry.value, similarity (embed query) e.2)),
        { c with cache := c.cache.set e.1 entry.hit }) := by
  unfold SemanticCache.get
  rw [h.threshold_eq]
  dsimp only
  rcases bestMatch_cases threshold (similarity (embed query)) ((none : Option String), 0)
    c.embeddings with ⟨heq, hnone⟩ | ⟨e, hmax, hpos, hthr, heq⟩
  · rw [heq]
    exact Or.inl ⟨rfl, hnone⟩
  · obtain ⟨hne, entry, hentry⟩ := h.exists_entry hmax.mem
    refine Or.inr ⟨e, entry, hmax, hpos, hthr, hentry, ?_⟩
    rw [heq]
    dsimp only
    rw [if_neg hne, hentry]

/-- The same in the terms of the history: a lookup answers with the last result of the first of the
most similar queries that were stored. -/
theorem SemanticTracks.get_stored {tr : List (SemanticOp V)} {c : SemanticCache V S}
    (h : SemanticTracks sha threshold tr c) (query : String) :
    let score := fun p : String × V => similarity (embed query) (embed p.1)
    ((c.get similarity query).1 = .ok none ↔
      ∀ p ∈ storedPairs tr, ¬ (threshold ≤ score p ∧ 0 < score p)) ∧
    ∀ v s, (c.get similarity query).1 = .ok (some (v, s)) ↔
      ∃ p, IsFirstMax score (storedPairs tr) p ∧ s = score p ∧ threshold ≤ s ∧ 0 < s ∧
        lastResult p.1 tr = some v := by
  intro score
  rcases h.get_cases similarity query with ⟨hget, hnone⟩ | ⟨e, entry, hmax, hpos, hthr, hentry, hget⟩
  · have hpairs : ∀ p ∈ storedPairs tr, ¬ (threshold ≤ score p ∧ 0 < score p) := by
      rintro p hp ⟨hthr, hpos⟩
      refine hnone (sha.hexdigest p.1, embed p.1) ?_ ⟨hpos, hthr⟩
      rw [h.embeddings]
      exact List.mem_map_of_mem hp
    rw [hget]
    refine ⟨⟨fun _ => hpairs, fun _ => rfl⟩, fun v s => ⟨fun he => ?_, ?_⟩⟩
    · cases Except.ok.inj he
    · rintro ⟨p, hmax, rfl, hthr, hpos, -⟩
      exact absurd ⟨hthr, hpos⟩ (hpairs p hmax.mem)
  · rw [h.embeddings, isFirstMax_map] at hmax
    obtain ⟨p, rfl, hmax⟩ := hmax
    have hcached := h.cached p.1
    rw [values, hentry] at hcached
    rw [hget]
    refine ⟨⟨fun he => ?_, fun hnone => ?_⟩, fun v s => ⟨fun he => ?_, ?_⟩⟩
    · cases Except.ok.inj he
    · exact absurd ⟨hthr, hpos⟩ (hnone p hmax.mem)
    · obtain ⟨rfl, rfl⟩ := Prod.mk.inj (Option.some.inj (Except.ok.inj he))
      exact ⟨p, hmax, rfl, hthr, hpos, hcached.symm⟩
    · rintro ⟨p', hmax', rfl, -, -, hlast⟩
      obtain rfl := IsFirstMax.unique hmax hmax'
      rw [Option.some.inj (hcached.trans hlast)]

variable (sha threshold)

/-- **Exact lookup.** A lookup answers with what is cached under the first of the most similar
stored embeddings, if that one is similar enough, and counts the hit there and nowhere else. It
never fails. What it answers with is the last result of the first of the most similar queries that
the history stored. -/
theorem semanticCache_get_argmax (tr : List (SemanticOp V)) (query : String) :
    let c := run (SemanticCache.step similarity sha) { similarityThreshold := threshold } tr
    let score := fun e : String × List ℚ => similarity (embed query) e.2
    (∀ error, (c.get similarity query).1 ≠ .error error) ∧
      ((c.get similarity query).1 = .ok none ↔
        ∀ e ∈ c.embeddings, ¬ (threshold ≤ score e ∧ 0 < score e)) ∧
      ((c.get similarity query).1 = .ok none → (c.get similarity query).2 = c) ∧
      (∀ v s, (c.get similarity query).1 = .ok (some (v, s)) ↔
        ∃ e entry, IsFirstMax score c.embeddings e ∧ s = score e ∧ threshold ≤ s ∧ 0 < s ∧
          c.cache.get? e.1 = some entry ∧ v = entry.value ∧
          ∀ key, (c.get similarity query).2.cache.get? key =
            if key = e.1 then some { entry with hitCount := entry.hitCount + 1 }
            else c.cache.get? key) ∧
      let storedScore := fun p : String × V => similarity (embed query) (embed p.1)
      ((c.get similarity query).1 = .ok none ↔
        ∀ p ∈ storedPairs tr, ¬ (threshold ≤ storedScore p ∧ 0 < storedScore p)) ∧
      ∀ v s, (c.get similarity query).1 = .ok (some (v, s)) ↔
        ∃ p, IsFirstMax storedScore (storedPairs tr) p ∧ s = storedScore p ∧ threshold ≤ s ∧ 0 < s ∧
          lastResult p.1 tr = some v := by
  intro c score
  have htracks := semanticTracks_run similarity sha threshold tr
  have hstored := htracks.get_stored similarity query
  rcases htracks.get_cases similarity query with
    ⟨heq, hnone⟩ | ⟨e, entry, hmax, hpos, hthr, hentry, heq⟩
  · have hget : c.get similarity query = (.ok none, c) := heq
    refine ⟨?_, ?_, ?_, ?_, hstored⟩ <;> rw [hget]
    · exact fun _ he => by cases he
    · exact ⟨fun _ e he ⟨hthr, hpos⟩ => hnone e he ⟨hpos, hthr⟩, fun _ => rfl⟩
    · exact fun _ => rfl
    refine fun v s => ⟨fun he => ?_, ?_⟩
    · cases Except.ok.inj he
    · rintro ⟨e, entry, hmax, rfl, hthr, hpos, -⟩
      exact absurd ⟨hpos, hthr⟩ (hnone e hmax.mem)
  · have hget : c.get similarity query =
        (.ok (some (entry.value, score e)), { c with cache := c.cache.set e.1 entry.hit }) := heq
    refine ⟨?_, ?_, ?_, ?_, hstored⟩
    · rw [hget]
      exact fun _ he => by cases he
    · rw [hget]
      exact ⟨fun he => (by cases he), fun hnone => absurd ⟨hthr, hpos⟩ (hnone e hmax.mem)⟩
    · rw [hget]
      exact fun he => by cases he
    rw [hget]
    refine fun v s => ⟨fun he => ?_, ?_⟩
    · obtain ⟨rfl, rfl⟩ := Prod.mk.inj (Option.some.inj (Except.ok.inj he))
      exact ⟨e, entry, hmax, rfl, hthr, hpos, hentry, rfl, fun key => Dict.get?_set _ _ _ _⟩
    · rintro ⟨e', entry', hmax', rfl, -, -, hentry', rfl, -⟩
      obtain rfl := hmax.unique hmax'
      obtain rfl : entry = entry' := Option.some.inj (hentry.symm.trans hentry')
      rfl

end Runs

/-! ## The cosine -/

/-- The dot product, of the longer list only the part as long as the other. -/
def dot (a b : List ℚ) : ℚ := (List.zipWith (· * ·) a b).sum

/-- The square of the norm. -/
def sqNorm (a : List ℚ) : ℚ := (a.map fun x => x * x).sum

/-- Two embeddings of one direction. -/
def Alike (a b : List ℚ) : Prop := 0 < dot a b ∧ dot a b * dot a b = sqNorm a * sqNorm b

instance (a b : List ℚ) : Decidable (Alike a b) := inferInstanceAs (Decidable (_ ∧ _))

theorem sqNorm_cons (x : ℚ) (a : List ℚ) : sqNorm (x :: a) = x * x + sqNorm a := by
  unfold sqNorm
  rw [List.map_cons, List.sum_cons]

theorem dot_cons (x y : ℚ) (a b : List ℚ) : dot (x :: a) (y :: b) = x * y + dot a b := by
  unfold dot
  rw [List.zipWith_cons_cons, List.sum_cons]

theorem dot_nil_left (b : List ℚ) : dot [] b = 0 := rfl

theorem dot_nil_right (a : List ℚ) : dot a [] = 0 := by
  unfold dot
  rw [List.zipWith_nil_right, List.sum_nil]

theorem dot_self (a : List ℚ) : dot a a = sqNorm a := by
  unfold dot sqNorm
  rw [List.zipWith_self]

theorem sqNorm_nonneg (a : List ℚ) : 0 ≤ sqNorm a := by
  induction a with
  | nil => exact le_rfl
  | cons x a ih => rw [sqNorm_cons]; exact add_nonneg (mul_self_nonneg x) ih

theorem sqNorm_pos_iff {a : List ℚ} : 0 < sqNorm a ↔ ∃ x ∈ a, x ≠ 0 := by
  induction a with
  | nil => simp [sqNorm]
  | cons x a ih =>
    have ha := sqNorm_nonneg a
    rw [sqNorm_cons]
    constructor
    · intro h
      by_cases hx : x = 0
      · rw [hx, mul_zero, zero_add] at h
        obtain ⟨y, hy, hne⟩ := ih.mp h
        exact ⟨y, List.mem_cons_of_mem _ hy, hne⟩
      · exact ⟨x, List.mem_cons_self, hx⟩
    · rintro ⟨y, hy, hne⟩
      rcases List.mem_cons.mp hy with rfl | hy
      · exact add_pos_of_pos_of_nonneg (mul_self_pos.mpr hne) ha
      · exact add_pos_of_nonneg_of_pos (mul_self_nonneg x) (ih.mpr ⟨y, hy, hne⟩)

/-- Cauchy and Schwarz. -/
theorem dot_mul_dot_le (a b : List ℚ) : dot a b * dot a b ≤ sqNorm a * sqNorm b := by
  induction a generalizing b with
  | nil =>
    rw [dot_nil_left, mul_zero]
    exact mul_nonneg (sqNorm_nonneg []) (sqNorm_nonneg b)
  | cons x a ih =>
    cases b with
    | nil =>
      rw [dot_nil_right, mul_zero]
      exact mul_nonneg (sqNorm_nonneg _) (sqNorm_nonneg [])
    | cons y b =>
      have ha := sqNorm_nonneg a
      have hb := sqNorm_nonneg b
      have hmixed : 2 * (x * y * dot a b) ≤ x * x * sqNorm b + y * y * sqNorm a := by
        have hx := mul_nonneg (mul_self_nonneg x) hb
        have hy := mul_nonneg (mul_self_nonneg y) ha
        refine le_of_abs_le (abs_le_of_sq_le_sq ?_ (add_nonneg hx hy))
        calc (2 * (x * y * dot a b)) ^ 2 = 4 * ((x * y) * (x * y)) * (dot a b * dot a b) := by ring
          _ ≤ 4 * ((x * y) * (x * y)) * (sqNorm a * sqNorm b) :=
            mul_le_mul_of_nonneg_left (ih b) (mul_nonneg (by norm_num) (mul_self_nonneg _))
          _ ≤ 4 * ((x * y) * (x * y)) * (sqNorm a * sqNorm b) +
                (x * x * sqNorm b - y * y * sqNorm a) ^ 2 := le_add_of_nonneg_right (sq_nonneg _)
          _ = (x * x * sqNorm b + y * y * sqNorm a) ^ 2 := by ring
      rw [dot_cons, sqNorm_cons, sqNorm_cons]
      linarith [ih b, hmixed]

/-- The cosine from the dot product and the norms, which are all zero for an empty list. -/
theorem cosine_eq (a b : List ℚ) :
    cosine a b = if sqNorm a = 0 ∨ sqNorm b = 0 then 0
      else (dot a b : ℝ) / (√(sqNorm a : ℝ) * √(sqNorm b : ℝ)) := by
  have hsqrt : ∀ c : List ℚ, √(sqNorm c : ℝ) = 0 ↔ sqNorm c = 0 := fun c => by
    rw [Real.sqrt_eq_zero (by exact_mod_cast sqNorm_nonneg c)]
    norm_cast
  unfold cosine
  by_cases hnil : a = [] ∨ b = []
  · rw [if_pos hnil, if_pos (hnil.imp (fun h => by rw [h]; rfl) fun h => by rw [h]; rfl)]
  · rw [if_neg hnil]
    exact if_congr (or_congr (hsqrt a) (hsqrt b)) rfl rfl

theorem norms_pos {a b : List ℚ} (h : ¬ (sqNorm a = 0 ∨ sqNorm b = 0)) :
    0 < √(sqNorm a : ℝ) * √(sqNorm b : ℝ) := by
  rw [not_or] at h
  have ha : (0 : ℝ) < sqNorm a := by exact_mod_cast (sqNorm_nonneg a).lt_of_ne' h.1
  have hb : (0 : ℝ) < sqNorm b := by exact_mod_cast (sqNorm_nonneg b).lt_of_ne' h.2
  exact mul_pos (Real.sqrt_pos.mpr ha) (Real.sqrt_pos.mpr hb)

theorem norms_eq_sqrt (a b : List ℚ) :
    √(sqNorm a : ℝ) * √(sqNorm b : ℝ) = √((sqNorm a * sqNorm b : ℚ) : ℝ) := by
  rw [Rat.cast_mul, Real.sqrt_mul (by exact_mod_cast sqNorm_nonneg a)]

theorem cosine_le_one (a b : List ℚ) : cosine a b ≤ 1 := by
  rw [cosine_eq]
  split_ifs with hzero
  · exact zero_le_one
  · rw [div_le_one (norms_pos hzero), norms_eq_sqrt]
    refine Real.le_sqrt_of_sq_le ?_
    rw [sq]
    exact_mod_cast dot_mul_dot_le a b

/-- Similarity one is the same direction. -/
theorem cosine_eq_one_iff (a b : List ℚ) : cosine a b = 1 ↔ Alike a b := by
  rw [cosine_eq]
  split_ifs with hzero
  · refine ⟨fun h => absurd h zero_ne_one, fun h => ?_⟩
    have hprod : sqNorm a * sqNorm b = 0 := mul_eq_zero.mpr hzero
    exact absurd (mul_self_eq_zero.mp (h.2.trans hprod)) h.1.ne'
  · have hpos := norms_pos hzero
    rw [div_eq_one_iff_eq hpos.ne', norms_eq_sqrt]
    constructor
    · intro h
      rw [norms_eq_sqrt, ← h] at hpos
      refine ⟨by exact_mod_cast hpos, ?_⟩
      have hsq := (Real.sqrt_eq_iff_mul_self_eq_of_pos hpos).mp h.symm
      exact_mod_cast hsq
    · rintro ⟨hdot, hsq⟩
      rw [← hsq, Rat.cast_mul, Real.sqrt_mul_self (by exact_mod_cast hdot.le)]

theorem alike_self {a : List ℚ} (h : ∃ x ∈ a, x ≠ 0) : Alike a a := by
  unfold Alike
  rw [dot_self]
  exact ⟨sqNorm_pos_iff.mpr h, rfl⟩

theorem cosine_of_zero {a : List ℚ} (h : ¬ ∃ x ∈ a, x ≠ 0) (b : List ℚ) : cosine a b = 0 := by
  rw [cosine_eq, if_pos]
  rw [← sqNorm_pos_iff, not_lt] at h
  exact Or.inl (h.antisymm (sqNorm_nonneg a))

/-! ## Digests from a table -/

/-- The digests of a table, and for every other text the text itself behind a `#`. -/
def Digest.ofTable (table : List (String × String))
    (hinj : ∀ e ∈ table, ∀ e' ∈ table, e.2 = e'.2 → e.1 = e'.1)
    (hhash : ∀ e ∈ table, e.2 ≠ "" ∧ e.2.toList.head? ≠ some '#') : Digest where
  hexdigest text :=
    match table.find? fun e => e.1 = text with
    | some e => e.2
    | none => "#" ++ text
  injective := by
    have hfound : ∀ {text : String} {e : String × String},
        table.find? (fun e => e.1 = text) = some e → e ∈ table ∧ e.1 = text := fun h =>
      ⟨List.mem_of_find?_eq_some h, by simpa using List.find?_some h⟩
    have hother : ∀ {text : String} {e : String × String}, e ∈ table → "#" ++ text ≠ e.2 := by
      intro text e he heq
      exact (hhash e he).2 (by rw [← heq, String.toList_append]; rfl)
    intro s t h
    dsimp only at h
    split at h <;> split at h
    · rename_i hs _ _ ht
      rw [← (hfound hs).2, ← (hfound ht).2]
      exact hinj _ (hfound hs).1 _ (hfound ht).1 h
    · rename_i hs _ _
      exact absurd h.symm (hother (hfound hs).1)
    · rename_i _ _ ht
      exact absurd h (hother (hfound ht).1)
    · simpa using h
  ne_empty text := by
    split
    · rename_i hs
      exact (hhash _ (List.mem_of_find?_eq_some hs)).1
    · simp

/-- The digests of the texts `"a"` and `"b"`. -/
def lettersDigest : Digest :=
  .ofTable [("a", "ca978112ca1bbdcafac231b39a23dc4da786eff8147c4e72b9807785afee48bb"),
    ("b", "3e23e8160039594a33894f6564e1b1348bbd7a0088d42c4acb73eeaed59c009d")]
    (by decide +kernel) (by decide +kernel)

/-! ## Lookups of stored queries -/

/-- The first ten characters are not all NUL. -/
def HasDirection (query : String) : Prop := ∃ c ∈ query.toList.take 10, c ≠ '\x00'

theorem hasDirection_iff {query : String} : HasDirection query ↔ ∃ x ∈ embed query, x ≠ 0 := by
  unfold HasDirection embed
  simp only [List.mem_map]
  constructor
  · rintro ⟨c, hc, hne⟩
    refine ⟨_, ⟨c, hc, rfl⟩, div_ne_zero (Nat.cast_ne_zero.mpr fun hzero => hne ?_) (by norm_num)⟩
    exact Char.toNat_inj.mp hzero
  · rintro ⟨x, ⟨c, hc, rfl⟩, hne⟩
    refine ⟨c, hc, ?_⟩
    rintro rfl
    exact hne (by rw [show '\x00'.toNat = 0 from rfl, Nat.cast_zero, zero_div])

section Cosine

variable (sha : Digest) {threshold : ℝ}

/-- The first query stored that has the direction of `query`. -/
def FirstAlike (query : String) (tr : List (SemanticOp V)) (p : String × V) : Prop :=
  ∃ before after, storedPairs tr = before ++ p :: after ∧ Alike (embed query) (embed p.1) ∧
    ∀ p' ∈ before, ¬ Alike (embed query) (embed p'.1)

/-- As the cosine is at most one, the first query of one direction is the first maximum. -/
theorem firstAlike_iff {query : String} {tr : List (SemanticOp V)} {p : String × V} :
    FirstAlike query tr p ↔
      IsFirstMax (fun p => cosine (embed query) (embed p.1)) (storedPairs tr) p ∧
        cosine (embed query) (embed p.1) = 1 := by
  have hone := fun p' : String × V => cosine_le_one (embed query) (embed p'.1)
  constructor
  · rintro ⟨before, after, hes, halike, hbefore⟩
    have hcos := (cosine_eq_one_iff _ _).mpr halike
    refine ⟨⟨before, after, hes, fun x hx => ?_, fun x hx => ?_⟩, hcos⟩
    · exact (lt_of_le_of_ne (hone x) fun he => hbefore x hx ((cosine_eq_one_iff _ _).mp he)).trans_eq
        hcos.symm
    · exact (hone x).trans_eq hcos.symm
  · rintro ⟨⟨before, after, hes, hbefore, -⟩, hcos⟩
    refine ⟨before, after, hes, (cosine_eq_one_iff _ _).mp hcos, fun x hx halike => ?_⟩
    have hlt := hbefore x hx
    dsimp only at hlt
    rw [hcos, (cosine_eq_one_iff _ _).mpr halike] at hlt
    exact lt_irrefl 1 hlt

/-- What a stored query of some direction is answered with: the last result of the first query of
its direction. -/
theorem get_of_hasDirection (hthr : threshold ≤ 1) {tr : List (SemanticOp V)} {query : String}
    {v : V} (hstored : (query, v) ∈ storedPairs tr) (hdir : HasDirection query) :
    ∃ p, FirstAlike query tr p ∧ ∃ w, lastResult p.1 tr = some w ∧
      ((run (SemanticCache.step cosine sha) { similarityThreshold := threshold } tr).get cosine
        query).1 = .ok (some (w, 1)) := by
  have htracks := semanticTracks_run cosine sha threshold tr
  have hself : cosine (embed query) (embed query) = 1 :=
    (cosine_eq_one_iff _ _).mpr (alike_self (hasDirection_iff.mp hdir))
  have hmem : (sha.hexdigest query, embed query) ∈
      (run (SemanticCache.step cosine sha) { similarityThreshold := threshold } tr).embeddings := by
    rw [htracks.embeddings]
    exact List.mem_map.mpr ⟨(query, v), hstored, rfl⟩
  rcases htracks.get_cases cosine query with ⟨-, hnone⟩ | ⟨e, entry, hmax, -, -, hentry, hget⟩
  · refine absurd ⟨?_, ?_⟩ (hnone _ hmem)
    · rw [hself]
      exact one_pos
    · rw [hself]
      exact hthr
  · have hcos : cosine (embed query) e.2 = 1 :=
      (cosine_le_one _ _).antisymm (hself.symm.le.trans (hmax.le hmem))
    rw [htracks.embeddings, isFirstMax_map] at hmax
    obtain ⟨p, rfl, hmax⟩ := hmax
    have hcached := htracks.cached p.1
    rw [values, hentry] at hcached
    exact ⟨p, firstAlike_iff.mpr ⟨hmax, hcos⟩, entry.value, hcached.symm, by rw [hget, hcos]⟩

/-- **Exact lookup of a stored query.** With a threshold of at most one a stored query is answered
with its own last result, exactly when its first ten characters are not all NUL and the first query
stored of its direction has the same last result. -/
theorem exactLookup_iff (hthr : threshold ≤ 1) {tr : List (SemanticOp V)} {query : String} {v : V}
    (hlast : lastResult query tr = some v) :
    (∃ s, ((run (SemanticCache.step cosine sha) { similarityThreshold := threshold } tr).get cosine
        query).1 = .ok (some (v, s))) ↔
      HasDirection query ∧ ∀ p, FirstAlike query tr p → lastResult p.1 tr = some v := by
  have hstored : (query, v) ∈ storedPairs tr := by
    obtain ⟨p, hp, rfl⟩ := Option.map_eq_some_iff.mp hlast
    obtain ⟨hmem, hquery⟩ := List.mem_filter.mp (List.mem_of_getLast? hp)
    rwa [← of_decide_eq_true hquery]
  by_cases hdir : HasDirection query
  · obtain ⟨p, hp, w, hw, hget⟩ := get_of_hasDirection sha hthr hstored hdir
    rw [hget]
    constructor
    · rintro ⟨s, hs⟩
      refine ⟨hdir, fun p' hp' => ?_⟩
      obtain rfl := (firstAlike_iff.mp hp).1.unique (firstAlike_iff.mp hp').1
      rw [hw, (Prod.mk.inj (Option.some.inj (Except.ok.inj hs))).1]
    · rintro ⟨-, hall⟩
      obtain rfl : w = v := Option.some.inj (hw.symm.trans (hall p hp))
      exact ⟨1, rfl⟩
  · refine ⟨fun ⟨s, hs⟩ => ?_, fun h => absurd h.1 hdir⟩
    -- a query without direction is similar to nothing
    have hzero := cosine_of_zero (mt hasDirection_iff.mpr hdir)
    rcases (semanticTracks_run cosine sha threshold tr).get_cases cosine query with
      ⟨hget, -⟩ | ⟨e, entry, -, hpos, -⟩
    · rw [hget] at hs
      cases Except.ok.inj hs
    · rw [hzero] at hpos
      exact absurd hpos (lt_irrefl 0)

end Cosine

theorem exactLookup_iff_letter :
    ∃ s, ((run (SemanticCache.step cosine lettersDigest) { similarityThreshold := 0.95 }
      [.set "a" (.int 1), .set "b" (.int 2), .set "a" (.int 3)]).get cosine "a").1 =
        .ok (some (Json.int 3, s)) := by
  refine (exactLookup_iff lettersDigest (by norm_num) rfl).mpr ⟨⟨'a', by decide, by decide⟩, ?_⟩
  intro p hp
  have hfirst : FirstAlike "a" [.set "a" (.int 1), .set "b" (.int 2), .set "a" (.int 3)]
      ("a", Json.int 1) :=
    ⟨[], [("b", .int 2), ("a", .int 3)], rfl, by decide +kernel, fun _ h => by cases h⟩
  obtain rfl := (firstAlike_iff.mp hp).1.unique (firstAlike_iff.mp hfirst).1
  rfl

/-- Queries of one character all have the same direction: `"b"` is answered with the result of
`"a"`. -/
theorem otherLetter_answered :
    let tr : List (SemanticOp Json) := [.set "a" (.int 1), .set "b" (.int 2)]
    lastResult "b" tr = some (.int 2) ∧
      ((run (SemanticCache.step cosine lettersDigest) { similarityThreshold := 0.95 } tr).get cosine
        "b").1 = .ok (some (.int 1, 1)) := by
  intro tr
  have hfirst : FirstAlike "b" tr ("a", .int 1) :=
    ⟨[], [("b", .int 2)], rfl, by decide +kernel, fun _ h => by cases h⟩
  have hthr : (0.95 : ℝ) ≤ 1 := by norm_num
  have hstored : ("b", .int 2) ∈ storedPairs tr := List.mem_cons_of_mem _ List.mem_cons_self
  obtain ⟨p, hp, w, hw, hget⟩ :=
    get_of_hasDirection lettersDigest hthr hstored ⟨'b', by decide, by decide⟩
  obtain rfl := (firstAlike_iff.mp hp).1.unique (firstAlike_iff.mp hfirst).1
  obtain rfl : Json.int 1 = w := Option.some.inj hw
  exact ⟨rfl, hget⟩

end PyStreamAI
