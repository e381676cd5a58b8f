import PyStreamAI.CachingHistory

/-!
# Models in the hybrid cache

The result cache keeps models apart and forgets what is invalidated (`setFor_of_held`,
`not_stale_of_held`). The semantic cache knows no models. So what `get_result` answers for a model
is its own, and is up to date, exactly as far as the results it falls back to are.
-/

open Py Machine

namespace PyStreamAI

variable {V S : Type}

/-- `set_result(m, _, v)` was called. -/
def SetFor (tr : List (CacheOp V)) (m : String) (v : V) : Prop := ∃ x, .setResult m x v ∈ tr

/-- `v` was set for `m` before an invalidation of `m`, and not after it. -/
def Stale (tr : List (CacheOp V)) (m : String) (v : V) : Prop :=
  ∃ before after,
    tr = before ++ .invalidateModel m :: after ∧ SetFor before m v ∧ ¬ SetFor after m v

theorem SetFor.snoc {tr : List (CacheOp V)} {m : String} {v : V} (h : SetFor tr m v)
    (op : CacheOp V) : SetFor (tr ++ [op]) m v := by
  obtain ⟨x, hx⟩ := h
  exact ⟨x, List.mem_append_left _ hx⟩

variable [Cacheable V]

/-! ## The result cache -/

/-- A held result is held from before, or was set by the last call. -/
theorem held_snoc_eq_some {m : String} {x : Json} {tr : List (CacheOp V)} {op : CacheOp V} {v : V}
    (h : held m x (tr ++ [op]) = some v) :
    (held m x tr = some v ∧ op ≠ .invalidateModel m) ∨ ∃ y, op = .setResult m y v := by
  rw [held_snoc] at h
  cases op with
  | invalidateModel m' =>
    unfold heldAfter at h
    dsimp only at h
    split_ifs at h with hm
    exact Or.inl ⟨h, fun he => hm (CacheOp.invalidateModel.inj he)⟩
  | getEmbedding text => exact Or.inl ⟨h, fun he => by cases he⟩
  | getResult m' y => exact Or.inl ⟨h, fun he => by cases he⟩
  | setResult m' y v' =>
    cases hsize : Cacheable.dumpSize v' with
    | error e =>
      simp only [heldAfter, CacheOp.stored?, hsize] at h
      exact Or.inl ⟨h, fun he => by cases he⟩
    | ok size =>
      simp only [heldAfter, CacheOp.stored?, hsize] at h
      split_ifs at h with hm
      · obtain rfl := Option.some.inj h
        exact Or.inr ⟨y, by rw [hm.1]⟩
      · exact Or.inl ⟨h, fun he => by cases he⟩

theorem setFor_of_held {m : String} {x : Json} {tr : List (CacheOp V)} {v : V}
    (h : held m x tr = some v) : SetFor tr m v := by
  induction tr using List.reverseRecOn with
  | nil => cases h
  | append_singleton tr op ih =>
    rcases held_snoc_eq_some h with ⟨hprev, -⟩ | ⟨y, rfl⟩
    · exact (ih hprev).snoc op
    · exact ⟨y, List.mem_append_right _ (List.mem_singleton_self _)⟩

/-- A held result was set after every invalidation of its model. -/
theorem setFor_after_of_held {m : String} {x : Json} {tr before after : List (CacheOp V)} {v : V}
    (h : held m x tr = some v) (htr : tr = before ++ .invalidateModel m :: after) :
    SetFor after m v := by
  induction tr using List.reverseRecOn generalizing after with
  | nil => cases h
  | append_singleton tr op ih =>
    rcases List.eq_nil_or_concat after with rfl | ⟨after, op', rfl⟩
    · have hop : op = .invalidateModel m := by
        obtain ⟨-, hop⟩ := List.append_inj' htr rfl
        exact (List.cons.inj hop).1
      rcases held_snoc_eq_some h with ⟨-, hne⟩ | ⟨y, hset⟩
      · exact absurd hop hne
      · rw [hop] at hset
        cases hset
    · have hsnoc : tr ++ [op] = (before ++ .invalidateModel m :: after) ++ [op'] := by
        rw [htr, List.concat_eq_append, List.append_assoc, List.cons_append]
      obtain ⟨htr', hop⟩ := List.append_inj' hsnoc rfl
      obtain rfl : op = op' := (List.cons.inj hop).1
      rw [List.concat_eq_append]
      rcases held_snoc_eq_some h with ⟨hprev, -⟩ | ⟨y, rfl⟩
      · exact (ih hprev htr').snoc op
      · exact ⟨y, List.mem_append_right _ (List.mem_singleton_self _)⟩

theorem not_stale_of_held {m : String} {x : Json} {tr : List (CacheOp V)} {v : V}
    (h : held m x tr = some v) : ¬ Stale tr m v := by
  rintro ⟨before, after, htr, -, hafter⟩
  exact hafter (setFor_after_of_held h htr)

/-! ## The fallback -/

section Fallback

variable [LinearOrder S] [Zero S] (similarity : List ℚ → List ℚ → S) (threshold : S)

/-- When the result cache holds no true result for `m` and `x`, the result that is served for the
most similar input instead has `P`, if it is true. -/
def FallsBackTo (P : Stored V → Prop) (tr : List (CacheOp V)) (m : String) (x : Json) : Prop :=
  (held m x tr).filter Cacheable.truthy = none → ∀ p, similar similarity threshold tr x = some p →
    Cacheable.truthy p.result = true → P p

theorem served_eq_some_iff {tr : List (CacheOp V)} {m : String} {x : Json} {v : V} :
    served similarity threshold tr m x = .ok (some v) ↔
      (held m x tr).filter Cacheable.truthy = some v ∨
        ((held m x tr).filter Cacheable.truthy = none ∧
          ∃ p, similar similarity threshold tr x = some p ∧ Cacheable.truthy p.result = true ∧
            p.result = v) := by
  unfold served
  cases (held m x tr).filter Cacheable.truthy with
  | some v' => simp
  | none =>
    cases similar similarity threshold tr x with
    | none => simp
    | some p => by_cases hp : Cacheable.truthy p.result = true <;> simp [hp]

theorem forall_answer_iff (sha : Digest) {Q : V → Prop} {tr : List (CacheOp V)} {m : String}
    {x : Json} (hheld : ∀ v, held m x tr = some v → Q v) :
    (∀ v, ((run (HybridCache.step similarity sha) (.init threshold) tr).getResult similarity sha
        m x).1 = .ok (some v) → Q v) ↔
      FallsBackTo similarity threshold (fun p => Q p.result) tr m x := by
  rw [(tracks_run sha threshold similarity tr).getResult_eq_served]
  simp only [served_eq_some_iff]
  constructor
  · intro h hnone p hp htrue
    exact h p.result (Or.inr ⟨hnone, p, hp, htrue, rfl⟩)
  · rintro h v (hv | ⟨hnone, p, hp, htrue, rfl⟩)
    · exact hheld v (Option.filter_eq_some_iff.mp hv).1
    · exact h hnone p hp htrue

/-! ## Isolation and invalidation -/

/-- **Isolation.** Throughout a history everything `get_result` answers for a model was set for
that model, exactly when everything it falls back to was set for the model asked for, or is equal
to a result that was. -/
theorem modelsApart_iff (sha : Digest) (tr : List (CacheOp V)) :
    (∀ pre m x, pre ++ [.getResult m x] <+: tr → ∀ v,
        ((run (HybridCache.step similarity sha) (.init threshold) pre).getResult similarity sha
          m x).1 = .ok (some v) → SetFor pre m v) ↔
      ∀ pre m x, pre ++ [.getResult m x] <+: tr →
        FallsBackTo similarity threshold (fun p => p.modelId = m ∨ SetFor pre m p.result)
          pre m x := by
  refine forall_congr' fun pre => forall_congr' fun m => forall_congr' fun x =>
    imp_congr_right fun _ => ?_
  rw [forall_answer_iff similarity threshold sha fun v => setFor_of_held]
  constructor
  · exact fun h hnone p hp htrue => Or.inr (h hnone p hp htrue)
  · intro h hnone p hp htrue
    rcases h hnone p hp htrue with hm | hset
    · -- the call that stored it was for `m`
      obtain ⟨query, -, hlast⟩ := Option.bind_eq_some_iff.mp hp
      exact ⟨p.inputData, hm ▸ mem_sets (mem_sets_of_lastFor hlast)⟩
    · exact hset

/-- **Invalidation.** Throughout a history `get_result` answers nothing stale for the model asked
for, exactly when it falls back to nothing stale for it. -/
theorem upToDate_iff (sha : Digest) (tr : List (CacheOp V)) :
    (∀ pre m x, pre ++ [.getResult m x] <+: tr → ∀ v,
        ((run (HybridCache.step similarity sha) (.init threshold) pre).getResult similarity sha
          m x).1 = .ok (some v) → ¬ Stale pre m v) ↔
      ∀ pre m x, pre ++ [.getResult m x] <+: tr →
        FallsBackTo similarity threshold (fun p => ¬ Stale pre m p.result) pre m x := by
  refine forall_congr' fun pre => forall_congr' fun m => forall_congr' fun x =>
    imp_congr_right fun _ => ?_
  exact forall_answer_iff similarity threshold sha fun v => not_stale_of_held

end Fallback

/-! ## Leaks -/

omit [Cacheable V] in
theorem cosine_self {emb : List ℚ} (hpos : 0 < (emb.map fun a => a * a).sum) :
    cosine emb emb = 1 := by
  have hne : emb ≠ [] := by
    rintro rfl
    exact absurd hpos (lt_irrefl 0)
  have hdot : List.zipWith (· * ·) emb emb = emb.map fun a => a * a := List.zipWith_self
  have hreal : (0 : ℝ) < ((emb.map fun a => a * a).sum : ℚ) := by exact_mod_cast hpos
  have hnorm : √(((emb.map fun a => a * a).sum : ℚ) : ℝ) ≠ 0 := (Real.sqrt_pos.mpr hreal).ne'
  unfold cosine
  rw [if_neg (not_or.mpr ⟨hne, hne⟩)]
  dsimp only
  rw [if_neg (not_or.mpr ⟨hnorm, hnorm⟩), hdot, Real.mul_self_sqrt hreal.le, div_self hreal.ne']

/-- The digests of the texts `"{}"`, `"a:{}:v1"` and `"b:{}:v1"`. -/
def sampleDigest : Digest where
  hexdigest text :=
    if text = "{}" then "44136fa355b3678a1146ad16f7e8649e94fb4fc21fe77e8310c060f61caaff8a"
    else if text = "a:{}:v1" then "89e75f97ab0675e865ad7c528f79c609d5837174168277df6dc0b9a0a2fa00f6"
    else if text = "b:{}:v1" then "a5b58e8967d00dc44e8d8d6699e6c974c42bcb6bb3624b2f48f821cf91739818"
    else "#" ++ text
  injective := by
    have hhash : ∀ text digest : String, digest.toList.head? ≠ some '#' → "#" ++ text ≠ digest := by
      rintro text _ hd rfl
      exact hd (by simp)
    intro s t h
    dsimp only at h
    split_ifs at h <;> first
      | (subst_vars; rfl)
      | exact absurd h (by decide)
      | exact absurd h (hhash _ _ (by decide))
      | exact absurd h.symm (hhash _ _ (by decide))
      | simpa using h
  ne_empty text := by
    split_ifs
    · decide
    · decide
    · decide
    · simp

/-- The input `{}`. -/
def noInput : Json := .obj []

theorem similar_noInput {tr : List (CacheOp V)} {p : Stored V} (hsets : sets tr = [p])
    (hp : p.query = "{}") : similar cosine 0.95 tr noInput = some p := by
  have hcos : cosine (embed "{}") (embed "{}") = 1 := by
    refine cosine_self ?_
    have hemb : embed "{}" = [123 / 255, 125 / 255] := by decide +kernel
    rw [hemb]
    decide +kernel
  have hlast : lastFor "{}" tr = some p := by
    unfold lastFor
    rw [hsets]
    simp [hp]
  have hinput : noInput.dumps false = "{}" := by decide +kernel
  unfold similar
  rw [hsets, hinput]
  simp only [List.map_cons, List.map_nil, bestMatch, hp, hcos]
  rw [if_pos ⟨one_pos, by norm_num⟩]
  exact hlast

/-- A result stored for the model `a` is the answer for the model `b`. -/
theorem otherModel_answered :
    let tr : List (CacheOp Json) := [.setResult "a" noInput (.int 1)]
    ((run (HybridCache.step cosine sampleDigest) (.init 0.95) tr).getResult cosine sampleDigest
      "b" noInput).1 = .ok (some (.int 1)) ∧ ¬ SetFor tr "b" (.int 1) := by
  intro tr
  refine ⟨?_, ?_⟩
  · rw [(tracks_run sampleDigest 0.95 cosine tr).getResult_eq_served, served_eq_some_iff]
    refine Or.inr ⟨by decide +kernel, ⟨"a", noInput, .int 1⟩, ?_, by decide +kernel, rfl⟩
    exact similar_noInput rfl (by decide +kernel)
  · rintro ⟨x, hx⟩
    exact absurd (CacheOp.setResult.inj (List.mem_singleton.mp hx)).1 (by decide)

/-- A result stored for the model `a` before its invalidation is the answer after it. -/
theorem invalidated_answered :
    let tr : List (CacheOp Json) := [.setResult "a" noInput (.int 1), .invalidateModel "a"]
    ((run (HybridCache.step cosine sampleDigest) (.init 0.95) tr).getResult cosine sampleDigest
      "a" noInput).1 = .ok (some (.int 1)) ∧ Stale tr "a" (.int 1) := by
  intro tr
  refine ⟨?_, ?_⟩
  · rw [(tracks_run sampleDigest 0.95 cosine tr).getResult_eq_served, served_eq_some_iff]
    refine Or.inr ⟨by decide +kernel, ⟨"a", noInput, .int 1⟩, ?_, by decide +kernel, rfl⟩
    exact similar_noInput rfl (by decide +kernel)
  · refine ⟨[.setResult "a" noInput (.int 1)], [], rfl, ⟨noInput, List.mem_singleton_self _⟩, ?_⟩
    rintro ⟨x, hx⟩
    cases hx

end PyStreamAI
