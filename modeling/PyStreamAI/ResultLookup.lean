import PyStreamAI.CachingIsolation
import PyStreamAI.Py.Colon
import PyStreamAI.Py.JsonParse

/-!
# What a lookup in the hybrid cache promises

A key of the result cache is the digest of model, input and version joined by colons. It tells
model and input apart whatever they hold, but a version can continue the text of another key
(`keyText_unambiguous_iff`). `get_result` takes a false result for no result, and unpacks what the
semantic cache answers also when that is `None` (`getResult_answers_iff`).
-/

open Py Machine

namespace PyStreamAI

/-! ## Keys -/

/-- Model and input in front of a version. -/
def keyPrefix (modelId : String) (inputData : Json) : String :=
  colonJoin modelId (inputData.dumps true)

theorem keyText_eq_colonJoin (m : String) (x : Json) (v : String) :
    ResultCache.keyText m x v = colonJoin (keyPrefix m x) v := by
  unfold ResultCache.keyText keyPrefix colonJoin
  rfl

theorem keyPrefix_inj {m m' : String} {x x' : Json} :
    keyPrefix m x = keyPrefix m' x' ↔ m = m' ∧ x.sortKeys = x'.sortKeys := by
  rw [← Json.dumps_sorted_inj]
  constructor
  · intro h
    have htext := congrArg String.toList h
    unfold keyPrefix Json.dumps at htext
    rw [toList_colonJoin, toList_colonJoin, String.toList_ofList, String.toList_ofList] at htext
    obtain ⟨hm, hx⟩ := Json.Whole.eq_of_append_colon (Json.whole_render true x)
      (Json.whole_render true x') htext
    exact ⟨String.toList_inj.mp hm, by unfold Json.dumps; rw [hx]⟩
  · rintro ⟨rfl, hx⟩
    unfold keyPrefix
    rw [hx]

/-- The version `v` is made of the rest of the other model and input, and of the other version. -/
def Continues (m : String) (x : Json) (v m' : String) (x' : Json) (v' : String) : Prop :=
  ∃ u, keyPrefix m' x' = colonJoin (keyPrefix m x) u ∧ v = colonJoin u v'

/-- **Keys.** Two triples that hash the same text are equal up to the order of keys, exactly when
neither version continues into the other triple. -/
theorem keyText_unambiguous_iff (m : String) (x : Json) (v m' : String) (x' : Json) (v' : String) :
    (ResultCache.keyText m x v = ResultCache.keyText m' x' v' →
        m = m' ∧ x.sortKeys = x'.sortKeys ∧ v = v') ↔
      ¬ Continues m x v m' x' v' ∧ ¬ Continues m' x' v' m x v := by
  rw [keyText_eq_colonJoin, keyText_eq_colonJoin, colonJoin_eq_iff, keyPrefix_inj]
  constructor
  · intro h
    refine ⟨fun hc => ?_, fun hc => ?_⟩
    · obtain ⟨u, -, hv⟩ := id hc
      exact colonJoin_ne_right u v' (hv ▸ (h (Or.inr (Or.inl hc))).2.2)
    · obtain ⟨u, -, hv⟩ := id hc
      exact colonJoin_ne_right u v (hv ▸ (h (Or.inr (Or.inr hc))).2.2.symm)
  · rintro ⟨hc, hc'⟩ (⟨⟨hm, hx⟩, hv⟩ | h | h)
    · exact ⟨hm, hx, hv⟩
    · exact absurd h hc
    · exact absurd h hc'

/-- Two models and two versions with one key. -/
theorem keyText_ambiguous :
    ResultCache.keyText "a" noInput "{}:v1" = ResultCache.keyText "a:{}" noInput "v1" ∧
      "a" ≠ "a:{}" ∧ "{}:v1" ≠ "v1" := by
  refine ⟨?_, by decide, by decide⟩
  rw [keyText_eq_colonJoin, keyText_eq_colonJoin]
  have hinput : noInput.dumps true = "{}" := by decide +kernel
  unfold keyPrefix
  rw [hinput]
  decide +kernel

/-! ## Misses -/

section Answers

variable {V S : Type} [Cacheable V] [LinearOrder S] [Zero S] (similarity : List ℚ → List ℚ → S)
  (threshold : S)

/-- The call returned a cached result, or `None` for want of one. A cached result can be `None`
itself, here `null`. -/
def Answers (null : V) (tr : List (CacheOp V)) (m : String) (x : Json) :
    Except Error (Option V) → Prop
  | .error _ => False
  | .ok answer =>
    held m x tr = some (answer.getD null) ∨
      (similar similarity threshold tr x).map Stored.result = some (answer.getD null) ∨
      (answer = none ∧ held m x tr = none ∧ similar similarity threshold tr x = none)

/-- **Misses.** `get_result` returns a cached result, or `None` when there is none, exactly when
the result cache holds a true result, or there is a similar input whose result is true, or when
`None` is the result of one of them. -/
theorem getResult_answers_iff (sha : Digest) (null : V) (tr : List (CacheOp V)) (m : String)
    (x : Json) :
    Answers similarity threshold null tr m x
        ((run (HybridCache.step similarity sha) (.init threshold) tr).getResult similarity sha m
          x).1 ↔
      (∃ v, held m x tr = some v ∧ Cacheable.truthy v = true) ∨
        ∃ p, similar similarity threshold tr x = some p ∧
          (Cacheable.truthy p.result = true ∨ p.result = null ∨ held m x tr = some null) := by
  rw [(tracks_run sha threshold similarity tr).getResult_eq_served]
  unfold served
  cases hheld : (held m x tr).filter Cacheable.truthy with
  | some v =>
    obtain ⟨hv, htrue⟩ := Option.filter_eq_some_iff.mp hheld
    exact ⟨fun _ => Or.inl ⟨v, hv, htrue⟩, fun _ => Or.inl hv⟩
  | none =>
    have hfalse : ¬ ∃ v, held m x tr = some v ∧ Cacheable.truthy v = true := by
      rintro ⟨v, hv, htrue⟩
      rw [Option.filter_eq_none_iff] at hheld
      exact hheld v hv htrue
    rw [or_iff_right hfalse]
    cases hsim : similar similarity threshold tr x with
    | none =>
      refine ⟨fun h => h.elim, ?_⟩
      rintro ⟨p, hp, -⟩
      cases hp
    | some p =>
      unfold Answers
      rw [hsim]
      by_cases htrue : Cacheable.truthy p.result = true
      · dsimp only
        rw [if_pos htrue]
        exact ⟨fun _ => ⟨p, rfl, Or.inl htrue⟩, fun _ => Or.inr (Or.inl rfl)⟩
      · dsimp only
        rw [if_neg htrue]
        constructor
        · rintro (h | h | ⟨-, -, h⟩)
          · exact ⟨p, rfl, Or.inr (Or.inr h)⟩
          · exact ⟨p, rfl, Or.inr (Or.inl (Option.some.inj h))⟩
          · cases h
        · rintro ⟨p', hp', h | h | h⟩
          · obtain rfl := Option.some.inj hp'
            exact absurd h htrue
          · obtain rfl := Option.some.inj hp'
            exact Or.inr (Or.inl (congrArg some h))
          · exact Or.inl h

end Answers

/-- The first lookup of all raises. -/
theorem getResult_of_empty :
    let tr : List (CacheOp Json) := []
    ((run (HybridCache.step cosine sampleDigest) (.init 0.95) tr).getResult cosine sampleDigest
      "a" noInput).1 = .error unpackNone := by
  intro tr
  rw [(tracks_run sampleDigest 0.95 cosine tr).getResult_eq_served]
  rfl

/-! ## Round trips -/

section RoundTrip

variable {S : Type} [LinearOrder S] [Zero S] (similarity : List ℚ → List ℚ → S) (threshold : S)

theorem held_of_later (sha : Digest) (tr : List (CacheOp Json)) (m : String) (x r : Json)
    {later : List (CacheOp Json)}
    (hlater : ∀ op ∈ later, ∃ m' x' r', op = .setResult m' x' r' ∧
      ¬ (m' = m ∧ x'.sortKeys = x.sortKeys)) :
    held m x (tr ++ .setResult m x r :: later) = some r := by
  induction later using List.reverseRecOn with
  | nil => rw [held_setResult sha tr rfl, if_pos rfl]
  | append_singleton later op ih =>
    obtain ⟨m', x', r', rfl, hother⟩ :=
      hlater op (List.mem_append_right _ (List.mem_singleton_self op))
    have hkey : ResultCache.getKey sha m x ≠ ResultCache.getKey sha m' x' := by
      rw [ne_eq, getKey_inj, Json.dumps_sorted_inj]
      exact fun h => hother ⟨h.1.symm, h.2.symm⟩
    rw [← List.cons_append, ← List.append_assoc, held_setResult sha _ rfl, if_neg hkey]
    exact ih fun op hop => hlater op (List.mem_append_left _ hop)

/-- **Round trip.** From any reachable cache on, a result comes back after any later results for
other pairs of model and input, exactly when it is true in Python. -/
theorem getResult_setResult_iff (sha : Digest) (tr : List (CacheOp Json)) (m : String) (x r : Json)
    {later : List (CacheOp Json)}
    (hlater : ∀ op ∈ later, ∃ m' x' r', op = .setResult m' x' r' ∧
      ¬ (m' = m ∧ x'.sortKeys = x.sortKeys)) :
    ((run (HybridCache.step similarity sha) (.init threshold)
        (tr ++ .setResult m x r :: later)).getResult similarity sha m x).1 = .ok (some r) ↔
      r.truthy = true := by
  rw [(tracks_run sha threshold similarity _).getResult_eq_served, served_eq_some_iff,
    held_of_later sha tr m x r hlater]
  constructor
  · rintro (h | ⟨-, p, -, htrue, rfl⟩)
    · exact (Option.filter_eq_some_iff.mp h).2
    · exact htrue
  · exact fun h => Or.inl (Option.filter_eq_some_iff.mpr ⟨rfl, h⟩)

end RoundTrip

theorem getResult_setResult_iff_sample :
    let tr : List (CacheOp Json) := [.setResult "a" noInput (.int 1), .setResult "b" noInput (.int 2)]
    ((run (HybridCache.step cosine sampleDigest) (.init 0.95) tr).getResult cosine sampleDigest
      "a" noInput).1 = .ok (some (.int 1)) := by
  intro tr
  refine (getResult_setResult_iff cosine 0.95 sampleDigest [] "a" noInput (.int 1) ?_).mpr rfl
  intro op hop
  obtain rfl := List.mem_singleton.mp hop
  exact ⟨"b", noInput, .int 2, rfl, fun h => absurd h.1 (by decide)⟩

/-- The result `0` does not come back. -/
theorem zero_not_returned :
    let tr : List (CacheOp Json) := [.setResult "a" noInput (.int 0)]
    ((run (HybridCache.step cosine sampleDigest) (.init 0.95) tr).getResult cosine sampleDigest
      "a" noInput).1 = .ok none := by
  intro tr
  have hheld : held "a" noInput tr = some (.int 0) :=
    held_of_later sampleDigest [] "a" noInput (.int 0) fun _ h => by cases h
  rw [(tracks_run sampleDigest 0.95 cosine tr).getResult_eq_served]
  unfold served
  rw [hheld, similar_noInput rfl (by decide +kernel)]
  rfl

end PyStreamAI
