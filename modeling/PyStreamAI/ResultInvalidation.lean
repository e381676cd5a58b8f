import PyStreamAI.CachingHistory

/-!
# Invalidating the result cache

The result cache keeps the keys of each model in an index, and an invalidation drops the keys listed
there. `lastSet` is what a lookup should see: the result of the last `set` for its model, input and
version that no invalidation of the model follows. The index lists exactly enough for that
(`Indexed`), whatever is set again between invalidations (`get_eq_lastSet`).
-/

open Py Machine

namespace PyStreamAI

namespace ResultCache

variable {V : Type}

/-- What an entry is stored for. -/
structure Slot where
  modelId : String
  inputData : Json
  version : String

/-- The key of the entry. -/
def Slot.key (sha : Digest) (t : Slot) : String := getKey sha t.modelId t.inputData t.version

/-- The same model, input and version. The order of the fields of an object makes no difference. -/
def Slot.Same (t t' : Slot) : Prop :=
  t.modelId = t'.modelId ∧ t.inputData.dumps true = t'.inputData.dumps true ∧
    t.version = t'.version

instance (t t' : Slot) : Decidable (t.Same t') := inferInstanceAs (Decidable (_ ∧ _ ∧ _))

theorem Slot.Same.symm {t t' : Slot} (h : t.Same t') : t'.Same t :=
  ⟨h.1.symm, h.2.1.symm, h.2.2.symm⟩

theorem Slot.Same.key {t t' : Slot} (h : t.Same t') (sha : Digest) : t.key sha = t'.key sha := by
  unfold Slot.key getKey keyText
  rw [h.1, h.2.1, h.2.2]

/-- One call on a result cache. -/
inductive Op (V : Type)
  | set (slot : Slot) (result : V)
  | get (slot : Slot)
  | invalidate (modelId : String)

/-- What the call is made for. -/
def Op.slot? : Op V → Option Slot
  | .set slot _ => some slot
  | .get slot => some slot
  | .invalidate _ => none

/-- The models, inputs and versions of a history. -/
def used (tr : List (Op V)) : List Slot := tr.filterMap Op.slot?

/-- Distinct ones have distinct keys. -/
def KeysDistinct (sha : Digest) (slots : List Slot) : Prop :=
  ∀ t ∈ slots, ∀ t' ∈ slots, t.key sha = t'.key sha → t.Same t'

variable [Cacheable V]

/-- The cache after a call, also one that raised. -/
def step (sha : Digest) (c : ResultCache V) : Op V → ResultCache V
  | .set t result => (c.set sha t.modelId t.inputData result t.version).2
  | .get t => (c.get sha t.modelId t.inputData t.version).2
  | .invalidate modelId => c.invalidate modelId

/-- The result has a JSON dump, without which `set` raises. -/
def dumpable (result : V) : Bool :=
  match Cacheable.dumpSize result with
  | .ok _ => true
  | .error _ => false

/-- `lastSet`, newest call first. -/
def latest (t : Slot) : List (Op V) → Option V
  | [] => none
  | .set t' result :: ops => if t'.Same t ∧ dumpable result then some result else latest t ops
  | .get _ :: ops => latest t ops
  | .invalidate modelId :: ops => if modelId = t.modelId then none else latest t ops

/-- The result of the last `set` for `t` that no invalidation of its model follows. -/
def lastSet (t : Slot) (tr : List (Op V)) : Option V := latest t tr.reverse

theorem lastSet_set (t t' : Slot) (result : V) (tr : List (Op V)) :
    lastSet t (tr ++ [.set t' result]) =
      if t'.Same t ∧ dumpable result then some result else lastSet t tr := by
  unfold lastSet
  rw [List.reverse_append]
  rfl

theorem lastSet_get (t t' : Slot) (tr : List (Op V)) :
    lastSet t (tr ++ [.get t']) = lastSet t tr := by
  unfold lastSet
  rw [List.reverse_append]
  rfl

theorem lastSet_invalidate (t : Slot) (modelId : String) (tr : List (Op V)) :
    lastSet t (tr ++ [.invalidate modelId]) =
      if modelId = t.modelId then none else lastSet t tr := by
  unfold lastSet
  rw [List.reverse_append]
  rfl

/-! ## The index -/

/-- The cache holds what was set last for each of `slots`, and the index lists their keys under
their models, at least those that are held. -/
structure Indexed (sha : Digest) (slots : List Slot) (tr : List (Op V)) (c : ResultCache V) :
    Prop where
  held : ∀ t ∈ slots, values c.cache (t.key sha) = lastSet t tr
  keyed : ∀ m key, key ∈ c.keysByModel.getD m [] → ∃ t ∈ slots, t.modelId = m ∧ key = t.key sha
  listed : ∀ t ∈ slots, (lastSet t tr).isSome → t.key sha ∈ c.keysByModel.getD t.modelId []

variable {sha : Digest} {slots : List Slot} {tr : List (Op V)} {c : ResultCache V}

theorem Indexed.set (h : Indexed sha slots tr c) (hkeys : KeysDistinct sha slots) {t' : Slot}
    (ht' : t' ∈ slots) (result : V) :
    Indexed sha slots (tr ++ [.set t' result])
      (c.set sha t'.modelId t'.inputData result t'.version).2 := by
  cases hsize : Cacheable.dumpSize result with
  | error e =>
    have hdump : dumpable result = false := by unfold dumpable; rw [hsize]
    have hlast : ∀ t, lastSet t (tr ++ [.set t' result]) = lastSet t tr := by
      intro t
      rw [lastSet_set, hdump, if_neg fun hand => Bool.false_ne_true hand.2]
    rw [resultCache_set_of_error sha c _ hsize]
    exact ⟨fun t ht => (h.held t ht).trans (hlast t).symm, h.keyed,
      fun t ht hsome => h.listed t ht (hlast t ▸ hsome)⟩
  | ok size =>
    have hdump : dumpable result = true := by unfold dumpable; rw [hsize]
    have hlast : ∀ t ∈ slots, lastSet t (tr ++ [.set t' result]) =
        if t.key sha = t'.key sha then some result else lastSet t tr := by
      intro t ht
      rw [lastSet_set, hdump]
      refine if_congr ?_ rfl rfl
      exact ⟨fun hand => (hand.1.key sha).symm,
        fun hkey => ⟨(hkeys t ht t' ht' hkey).symm, rfl⟩⟩
    refine ⟨fun t ht => ?_, fun m key hk => ?_, fun t ht hsome => ?_⟩
    · rw [values_resultCache_set sha c _ hsize, hlast t ht, ← h.held t ht]
      rfl
    · rw [mem_keysByModel_set sha c _ hsize] at hk
      rcases hk with ⟨rfl, hk⟩ | hk
      · exact ⟨t', ht', rfl, hk⟩
      · exact h.keyed m key hk
    · rw [mem_keysByModel_set sha c _ hsize]
      rw [hlast t ht] at hsome
      split_ifs at hsome with hkey
      · exact Or.inl ⟨(hkeys t ht t' ht' hkey).1, hkey⟩
      · exact Or.inr (h.listed t ht hsome)

theorem Indexed.get (h : Indexed sha slots tr c) (t' : Slot) :
    Indexed sha slots (tr ++ [.get t']) (c.get sha t'.modelId t'.inputData t'.version).2 := by
  obtain ⟨-, hvalues, hindex⟩ := resultCache_get sha c t'.modelId t'.inputData t'.version
  refine ⟨fun t ht => ?_, fun m key hk => ?_, fun t ht hsome => ?_⟩
  · rw [hvalues, lastSet_get]
    exact h.held t ht
  · rw [hindex] at hk
    exact h.keyed m key hk
  · rw [hindex]
    exact h.listed t ht (lastSet_get t t' tr ▸ hsome)

/-- An invalidation drops the keys listed under the model. They are keys of the model, and all of
its keys that are held are among them. -/
theorem Indexed.invalidate (h : Indexed sha slots tr c) (hkeys : KeysDistinct sha slots)
    (m : String) : Indexed sha slots (tr ++ [.invalidate m]) (c.invalidate m) := by
  refine ⟨fun t ht => ?_, fun m' key hk => ?_, fun t ht hsome => ?_⟩
  · rw [values_invalidate, lastSet_invalidate, h.held t ht]
    by_cases hm : m = t.modelId
    · subst hm
      rw [if_pos rfl]
      cases hlast : lastSet t tr with
      | none => split_ifs <;> rfl
      | some result => rw [if_pos (h.listed t ht (by rw [hlast]; rfl))]
    · rw [if_neg hm, if_neg]
      intro hmem
      obtain ⟨t', ht', hmodel, hkey⟩ := h.keyed m _ hmem
      exact hm (hmodel.symm.trans (hkeys t ht t' ht' hkey).1.symm)
  · rw [keysByModel_invalidate] at hk
    split_ifs at hk with hm
    · cases hk
    · exact h.keyed m' key hk
  · rw [lastSet_invalidate] at hsome
    split_ifs at hsome with hm
    · cases hsome
    · rw [keysByModel_invalidate, if_neg (Ne.symm hm)]
      exact h.listed t ht hsome

theorem Indexed.step (h : Indexed sha slots tr c) (hkeys : KeysDistinct sha slots) {op : Op V}
    (hop : ∀ t, op.slot? = some t → t ∈ slots) :
    Indexed sha slots (tr ++ [op]) (step sha c op) := by
  cases op with
  | set t' result => exact h.set hkeys (hop t' rfl) result
  | get t' => exact h.get t'
  | invalidate m => exact h.invalidate hkeys m

/-- Every history over `slots` leaves a cache that is indexed. -/
theorem indexed_run (hkeys : KeysDistinct sha slots) (hused : ∀ t ∈ used tr, t ∈ slots) :
    Indexed sha slots tr (run (step sha) {} tr) := by
  have hops : ∀ op ∈ tr, ∀ t, op.slot? = some t → t ∈ slots :=
    fun op hop t ht => hused t (List.mem_filterMap.mpr ⟨op, hop, ht⟩)
  have halong : Along (ResultCache.step sha)
      (fun _ (op : Op V) => ∀ t, op.slot? = some t → t ∈ slots) {} tr := along_of_forall hops
  refine halong.history (P := Indexed sha slots) ?_ fun _ _ h hop => h.step hkeys hop
  exact ⟨fun _ _ => rfl, fun _ _ hk => (by cases hk), fun _ _ hsome => (by cases hsome)⟩

/-- **Invalidation.** When the models, inputs and versions in use have distinct keys, a lookup
returns the result of the last `set` that no invalidation of the model follows. So an invalidation
takes away every result of its model, and no other one. -/
theorem get_eq_lastSet (sha : Digest) (tr : List (Op V)) (t : Slot)
    (hkeys : KeysDistinct sha (t :: used tr)) :
    ((run (step sha) {} tr).get sha t.modelId t.inputData t.version).1 = lastSet t tr ∧
      ∀ m, ((run (step sha) {} (tr ++ [.invalidate m])).get sha t.modelId t.inputData
        t.version).1 = if m = t.modelId then none
          else ((run (step sha) {} tr).get sha t.modelId t.inputData t.version).1 := by
  have hrun : Indexed sha (t :: used tr) tr (run (step sha) {} tr) :=
    indexed_run hkeys fun _ => List.mem_cons_of_mem t
  have hget : ∀ {ops : List (Op V)} {c : ResultCache V}, Indexed sha (t :: used tr) ops c →
      (c.get sha t.modelId t.inputData t.version).1 = lastSet t ops := fun h =>
    (resultCache_get sha _ _ _ _).1.trans (h.held t List.mem_cons_self)
  refine ⟨hget hrun, fun m => ?_⟩
  rw [run_snoc, hget hrun, ← lastSet_invalidate]
  exact hget (hrun.invalidate hkeys m)

/-- The input `{"x": 1}` of a model in version `v1`. -/
def slotOf (modelId : String) : Slot :=
  { modelId, inputData := .obj [("x", .int 1)], version := "v1" }

/-- Results of two models; the first is set again after an invalidation of its model. -/
def setAgain : List (Op Json) :=
  [.set (slotOf "m1") (.str "r1"), .set (slotOf "m2") (.str "r2"), .invalidate "m1",
    .set (slotOf "m1") (.str "r3")]

/-- The second result is served, and is gone after the next invalidation. -/
theorem setAgain_get :
    let c := run (step default) {} setAgain
    (c.get default "m1" (.obj [("x", .int 1)]) "v1").1 = some (.str "r3") ∧
      ((c.invalidate "m1").get default "m1" (.obj [("x", .int 1)]) "v1").1 = none := by
  have hkeys : KeysDistinct default (slotOf "m1" :: used setAgain) := by
    unfold KeysDistinct
    decide +kernel
  obtain ⟨hget, hgone⟩ := get_eq_lastSet default setAgain (slotOf "m1") hkeys
  have hafter := hgone "m1"
  rw [run_snoc] at hafter
  exact ⟨hget, hafter⟩

end ResultCache

end PyStreamAI
