import PyStreamAI.HotReload

/-!
# Models with colons in their names

A version's key has its model id and its version, joined by a colon, and the status of a model is
found by the beginning of the keys. `Isolated` says that models do not meet there. One load with a
colon in its model id or its version is enough to show a record in the status of another model, and
without such loads no two models meet (`isolated_iff`): the dictionary then holds for each model and
version the record of its last load, and nothing else (`Apart`).
-/

open Py Machine

namespace PyStreamAI

namespace HotReloadManager

variable {V : Type*} {tr : List (Op V)} {s : HotReloadManager V}

/-- The model that the call is about. -/
def Op.modelId : Op V → String
  | .loadModel modelId _ _ _ => modelId
  | .activateVersion modelId _ => modelId
  | .getCurrentModel modelId => modelId
  | .getModelStatus modelId => modelId

/-- The version `v` was loaded under `m`. -/
def LoadedIn (tr : List (Op V)) (m v : String) : Prop :=
  ∃ model now, .loadModel m v (.ok model) now ∈ tr

/-- What a successful load of the version `v` under `m` loads, and when. -/
def Op.loadUnder (m v : String) : Op V → Option (V × Datetime)
  | .loadModel m' v' (.ok model) now => if m' = m ∧ v' = v then some (model, now) else none
  | _ => none

/-- The last load of the version `v` under `m`. -/
def lastLoad (tr : List (Op V)) (m v : String) : Option (V × Datetime) :=
  tr.reverse.findSome? (Op.loadUnder m v)

/-- The call leaves what the other models serve. -/
def Keeps (s : HotReloadManager V) (op : Op V) : Prop :=
  ∀ m, op.modelId ≠ m → ((s.step op).getCurrentModel m).1 = (s.getCurrentModel m).1

/-- The status of every model lists the versions loaded under it, and shows for each of them the
record of its last load under this model. -/
structure StatusExact (tr : List (Op V)) : Prop where
  lists : ∀ m v, v ∈ ((run step init tr).getModelStatus m).versions.keys ↔ LoadedIn tr m v
  records : ∀ m v mv, (run step init tr).listed m v = some mv →
    mv.modelId = m ∧ lastLoad tr m v = some (mv.model, mv.loadedAt)

/-- Throughout the history no call changes what another model serves, and every status shows
exactly the versions loaded under its model. -/
structure Isolated (tr : List (Op V)) : Prop where
  keeps : ∀ pre op, pre ++ [op] <+: tr → Keeps (run step init pre) op
  status : ∀ pre, pre <+: tr → StatusExact pre

/-- If the call is a load that succeeds, neither its model id nor its version has a colon. -/
def Op.LoadsPlain (op : Op V) : Prop :=
  ∀ m v model now, op = .loadModel m v (.ok model) now → ':' ∉ m.toList ∧ ':' ∉ v.toList

/-! ## Loads in a history -/

theorem lastLoad_snoc (op : Op V) (m v : String) :
    lastLoad (tr ++ [op]) m v = (op.loadUnder m v).or (lastLoad tr m v) := by
  unfold lastLoad
  rw [List.reverse_append, List.reverse_singleton, List.singleton_append, List.findSome?_cons]
  cases op.loadUnder m v <;> rfl

theorem loadUnder_loadModel (m v m' v' : String) (model : V) (now : Datetime) :
    (Op.loadModel m v (.ok model) now).loadUnder m' v' =
      if m = m' ∧ v = v' then some (model, now) else none := rfl

theorem loadUnder_eq_some {op : Op V} {m v : String} {model : V} {now : Datetime} :
    op.loadUnder m v = some (model, now) ↔ op = .loadModel m v (.ok model) now := by
  constructor
  · intro h
    cases op with
    | loadModel m' v' loader now' =>
      cases loader with
      | error e => cases h
      | ok model' =>
        rw [loadUnder_loadModel] at h
        split_ifs at h with heq
        cases h
        rw [heq.1, heq.2]
    | _ => cases h
  · rintro rfl
    exact if_pos ⟨rfl, rfl⟩

theorem isSome_lastLoad {m v : String} : (lastLoad tr m v).isSome = true ↔ LoadedIn tr m v := by
  unfold lastLoad LoadedIn
  rw [List.findSome?_isSome_iff]
  constructor
  · rintro ⟨op, hop, hload⟩
    obtain ⟨⟨model, now⟩, hload⟩ := Option.isSome_iff_exists.mp hload
    rw [loadUnder_eq_some] at hload
    exact ⟨model, now, hload ▸ List.mem_reverse.mp hop⟩
  · rintro ⟨model, now, hop⟩
    exact ⟨_, List.mem_reverse.mpr hop, by rw [loadUnder_eq_some.mpr rfl]; rfl⟩

/-! ## The invariant -/

/-- A key without further colons has one model id and one version. -/
theorem key_eq_of_plain {m v m' v' : String} (hm : ':' ∉ m.toList) (hv : ':' ∉ v.toList)
    (h : key m' v' = key m v) : m' = m ∧ v' = v := by
  rcases colonJoin_eq_iff.mp h with heq | ⟨u, rfl, -⟩ | ⟨u, -, rfl⟩
  · exact heq
  · refine absurd ?_ hm
    rw [toList_colonJoin]
    exact List.mem_append_right _ List.mem_cons_self
  · refine absurd ?_ hv
    rw [toList_colonJoin]
    exact List.mem_append_right _ List.mem_cons_self

/-- The dictionary holds the records of the last loads, each under its own key, without a colon in
its model id or its version. -/
structure Apart (tr : List (Op V)) (s : HotReloadManager V) : Prop where
  stored : ∀ k mv, s.models.get? k = some mv →
    k = key mv.modelId mv.version ∧ ':' ∉ mv.modelId.toList ∧ ':' ∉ mv.version.toList
  last : ∀ m v, (s.models.get? (key m v)).map (fun mv => (mv.model, mv.loadedAt)) =
    lastLoad tr m v

theorem apart_init : Apart [] (init : HotReloadManager V) where
  stored _ _ h := by cases h
  last _ _ := rfl

theorem Apart.eq_of_get? (h : Apart tr s) {m v : String} {mv : ModelVersion V}
    (hmv : s.models.get? (key m v) = some mv) : m = mv.modelId ∧ v = mv.version := by
  obtain ⟨hkey, hm, hv⟩ := h.stored _ mv hmv
  exact key_eq_of_plain hm hv hkey

/-- A status shows a version from its own key only. -/
theorem Apart.listed_eq (h : Apart tr s) (m v : String) : s.listed m v = s.models.get? (key m v) := by
  unfold listed
  cases hfound : s.models.entries.reverse.find? fun e => ShownAs m v e with
  | some e =>
    obtain ⟨k, mv⟩ := e
    have hshown : decide (ShownAs m v (k, mv)) = true :=
      List.find?_some (p := fun e => decide (ShownAs m v e)) hfound
    obtain ⟨hstart, rfl⟩ := of_decide_eq_true hshown
    have hmv : s.models.get? k = some mv :=
      Dict.get?_eq_some.mpr (List.mem_reverse.mp (List.mem_of_find?_eq_some hfound))
    obtain ⟨rfl, hm, hv⟩ := h.stored k mv hmv
    obtain ⟨t, ht⟩ := startswith_colon_iff.mp hstart
    obtain ⟨rfl, -⟩ := key_eq_of_plain hm hv ht.symm
    exact hmv.symm
  | none =>
    cases hmv : s.models.get? (key m v) with
    | none => rfl
    | some mv =>
      have hnone := List.find?_eq_none.mp hfound (key m v, mv)
        (List.mem_reverse.mpr (Dict.get?_eq_some.mp hmv))
      refine absurd (decide_eq_true ⟨?_, (h.eq_of_get? hmv).2.symm⟩) hnone
      exact startswith_colon_iff.mpr ⟨v, rfl⟩

theorem Apart.statusExact (h : Apart tr (run step init tr)) : StatusExact tr where
  lists m v := by
    rw [mem_versions_getModelStatus, h.listed_eq, ← isSome_lastLoad, ← h.last, Option.isSome_map]
  records m v mv hmv := by
    rw [h.listed_eq] at hmv
    refine ⟨(h.eq_of_get? hmv).1.symm, ?_⟩
    rw [← h.last, hmv]
    rfl

/-! ## Calls that load nothing -/

/-- The two managers hold the same records, up to their counters and flags. -/
def SameRecords (s s' : HotReloadManager V) : Prop :=
  ∀ k, (s'.models.get? k).map (fun mv => (mv.modelId, mv.version, mv.model, mv.loadedAt)) =
    (s.models.get? k).map fun mv => (mv.modelId, mv.version, mv.model, mv.loadedAt)

theorem sameRecords_activateVersion (s : HotReloadManager V) (m v : String) :
    SameRecords s (s.activateVersion m v).2 :=
  fun k => map_get?_activateVersion s m v k fun _ => rfl

theorem sameRecords_getCurrentModel (s : HotReloadManager V) (m : String) :
    SameRecords s (s.getCurrentModel m).2 :=
  fun k => map_get?_getCurrentModel s m k fun _ => rfl

theorem SameRecords.map {s' : HotReloadManager V} (h : SameRecords s s') {β : Type*}
    (f : String × String × V × Datetime → β) (k : String) :
    (s'.models.get? k).map (fun mv => f (mv.modelId, mv.version, mv.model, mv.loadedAt)) =
      (s.models.get? k).map fun mv => f (mv.modelId, mv.version, mv.model, mv.loadedAt) := by
  have hk := congrArg (Option.map f) (h k)
  rw [Option.map_map, Option.map_map] at hk
  exact hk

theorem SameRecords.getCurrentModel_fst {s' : HotReloadManager V} (h : SameRecords s s')
    {m : String} (hcur : s'.currentVersions.get? m = s.currentVersions.get? m) :
    (s'.getCurrentModel m).1 = (s.getCurrentModel m).1 := by
  rw [HotReloadManager.getCurrentModel_fst, HotReloadManager.getCurrentModel_fst]
  exact map_serving hcur (h.map fun p => p.2.2.1)

theorem Apart.of_sameRecords (h : Apart tr s) {s' : HotReloadManager V} (hs : SameRecords s s') :
    Apart tr s' where
  stored k mv hmv := by
    have hsame := hs k
    rw [hmv, Option.map_some, eq_comm, Option.map_eq_some_iff] at hsame
    obtain ⟨mv', hmv', heq⟩ := hsame
    rw [Prod.mk.injEq, Prod.mk.injEq] at heq
    rw [← heq.1, ← heq.2.1]
    exact h.stored k mv' hmv'
  last m v := (hs.map (fun p => p.2.2) (key m v)).trans (h.last m v)

/-- A call that loads nothing, for the list of loads. -/
theorem Apart.snoc (h : Apart tr s) {op : Op V}
    (hop : ∀ m v model now, op ≠ .loadModel m v (.ok model) now) : Apart (tr ++ [op]) s := by
  refine ⟨h.stored, fun m v => ?_⟩
  have hnone : op.loadUnder m v = none := by
    rw [← Option.not_isSome_iff_eq_none, Option.isSome_iff_exists]
    rintro ⟨⟨model, now⟩, hload⟩
    exact hop m v model now (loadUnder_eq_some.mp hload)
  rw [lastLoad_snoc, hnone, h.last]
  rfl

/-- Calls that load nothing leave what the other models serve. -/
theorem keeps_of_not_load {op : Op V} (hop : ∀ m v model now, op ≠ .loadModel m v (.ok model) now) :
    Keeps s op := by
  intro m hm
  cases op with
  | loadModel m' v loader now =>
    cases loader with
    | error e => rfl
    | ok model => exact absurd rfl (hop m' v model now)
  | activateVersion m' v =>
    refine (sameRecords_activateVersion s m' v).getCurrentModel_fst ?_
    by_cases hl : s.Loaded m' v
    · rw [currentVersions_activateVersion hl, Dict.get?_set]
      exact if_neg (Ne.symm hm)
    · rw [activateVersion_of_not_loaded hl]
  | getCurrentModel m' =>
    refine (sameRecords_getCurrentModel s m').getCurrentModel_fst ?_
    rw [currentVersions_getCurrentModel]
  | getModelStatus m' => rfl

/-! ## Loads -/

section Load

variable {m v : String} {model : V} {now : Datetime}

theorem Apart.loadModel (h : Apart tr s) (hm : ':' ∉ m.toList) (hv : ':' ∉ v.toList) :
    Apart (tr ++ [.loadModel m v (.ok model) now]) (s.loadModel m v (.ok model) now).2 where
  stored k mv hmv := by
    rw [get?_loadModel] at hmv
    split_ifs at hmv with hkey
    · rw [← Option.some.inj hmv]
      exact ⟨hkey, hm, hv⟩
    · exact h.stored k mv hmv
  last m' v' := by
    rw [get?_loadModel, lastLoad_snoc, loadUnder_loadModel]
    by_cases heq : m = m' ∧ v = v'
    · rw [if_pos heq, if_pos (by rw [heq.1, heq.2])]
      rfl
    · have hkey : key m' v' ≠ key m v := fun hkey => heq <|
        (key_eq_of_plain hm hv hkey).imp Eq.symm Eq.symm
      rw [if_neg heq, if_neg hkey, h.last]
      rfl

/-- A load without colons replaces nothing of the other models. -/
theorem keeps_loadModel (hm : ':' ∉ m.toList) (hv : ':' ∉ v.toList) :
    Keeps s (.loadModel m v (.ok model) now) := by
  intro m' hne
  have hne : m' ≠ m := Ne.symm hne
  rw [HotReloadManager.getCurrentModel_fst, HotReloadManager.getCurrentModel_fst]
  show ((s.loadModel m v (.ok model) now).2.serving m').map ModelVersion.model = _
  congr 1
  unfold serving
  rw [currentVersions_loadModel, if_neg hne]
  refine Option.bind_congr fun w _ => ?_
  have hkey : key m' w ≠ key m v := fun hkey => hne (key_eq_of_plain hm hv hkey).1
  rw [get?_loadModel, if_neg hkey]

/-- A key with a second colon also starts with another model id. -/
theorem exists_other (h : ¬(':' ∉ m.toList ∧ ':' ∉ v.toList)) :
    ∃ m', m' ≠ m ∧ startswith (key m v) (m' ++ ":") = true := by
  by_cases hm : ':' ∈ m.toList
  · obtain ⟨a, b, rfl⟩ := exists_colonJoin hm
    exact ⟨a, (colonJoin_ne_left a b).symm, startswith_colon_iff.mpr
      ⟨colonJoin b v, (colonJoin_assoc a b v).symm⟩⟩
  · obtain ⟨a, b, rfl⟩ := exists_colonJoin (by_contra fun hv => h ⟨hm, hv⟩)
    exact ⟨colonJoin m a, colonJoin_ne_left m a, startswith_colon_iff.mpr
      ⟨b, colonJoin_assoc m a b⟩⟩

/-- Its record is the last one that the status of that model shows. -/
theorem Apart.listed_other (h : Apart tr s) (hcolon : ¬(':' ∉ m.toList ∧ ':' ∉ v.toList))
    {m' : String} (hstart : startswith (key m v) (m' ++ ":") = true) :
    (s.loadModel m v (.ok model) now).2.listed m' v = some (.init m v model now) := by
  have hnew : s.models.get? (key m v) = none := by
    rw [Option.eq_none_iff_forall_not_mem]
    intro mv hmv
    obtain ⟨-, hm, hv⟩ := h.stored _ mv hmv
    obtain ⟨rfl, rfl⟩ := h.eq_of_get? hmv
    exact hcolon ⟨hm, hv⟩
  have hentries : (s.loadModel m v (.ok model) now).2.models.entries =
      s.models.entries ++ [(key m v, .init m v model now)] := Dict.entries_set_of_none hnew _
  have hshown : ShownAs m' v (key m v, ModelVersion.init m v model now) := ⟨hstart, rfl⟩
  unfold listed
  rw [hentries, List.reverse_append, List.reverse_singleton, List.singleton_append]
  simp [hshown]

end Load

/-! ## Runs -/

theorem Apart.step (h : Apart tr s) {op : Op V} (hop : op.LoadsPlain) :
    Apart (tr ++ [op]) (s.step op) := by
  cases op with
  | loadModel m v loader now =>
    cases loader with
    | error e => exact h.snoc fun _ _ _ _ heq => by cases heq
    | ok model =>
      obtain ⟨hm, hv⟩ := hop m v model now rfl
      exact h.loadModel hm hv
  | activateVersion m v =>
    exact (h.of_sameRecords (sameRecords_activateVersion s m v)).snoc fun _ _ _ _ heq => by
      cases heq
  | getCurrentModel m =>
    exact (h.of_sameRecords (sameRecords_getCurrentModel s m)).snoc fun _ _ _ _ heq => by
      cases heq
  | getModelStatus m => exact h.snoc fun _ _ _ _ heq => by cases heq

theorem apart_run (h : Along step (fun _ op => op.LoadsPlain) init tr) :
    Apart tr (run step init tr) :=
  h.history apart_init fun _ _ hpre hop => hpre.step hop

/-- One call of a run whose loads so far had no colons. -/
theorem loadsPlain_iff (h : Apart tr (run step init tr)) (op : Op V) :
    op.LoadsPlain ↔ Keeps (run step init tr) op ∧ StatusExact (tr ++ [op]) := by
  constructor
  · intro hop
    have hstep : Apart (tr ++ [op]) (run step init (tr ++ [op])) := by
      rw [run_snoc]
      exact h.step hop
    refine ⟨?_, hstep.statusExact⟩
    by_cases hload : ∃ m v model now, op = .loadModel m v (.ok model) now
    · obtain ⟨m, v, model, now, rfl⟩ := hload
      obtain ⟨hm, hv⟩ := hop m v model now rfl
      exact keeps_loadModel hm hv
    · exact keeps_of_not_load fun m v model now heq => hload ⟨m, v, model, now, heq⟩
  · rintro ⟨-, hstatus⟩ m v model now rfl
    by_contra hcolon
    obtain ⟨m', hne, hstart⟩ := exists_other hcolon
    have hshown : (run step init (tr ++ [.loadModel m v (.ok model) now])).listed m' v =
        some (.init m v model now) := by
      rw [run_snoc]
      exact h.listed_other hcolon hstart
    exact hne (hstatus.records m' v _ hshown).1.symm

/-- **Isolation.** Models are isolated throughout a history exactly when neither a model id nor a
version of its successful loads has a colon. -/
theorem isolated_iff (tr : List (Op V)) : Isolated tr ↔ ∀ op ∈ tr, op.LoadsPlain := by
  have hgood : ∀ tr : List (Op V), Isolated tr ↔ ∀ pre, pre <+: tr →
      (∀ pre' op, pre = pre' ++ [op] → Keeps (run step init pre') op) ∧ StatusExact pre := by
    refine fun tr => ⟨fun h pre hpre => ⟨?_, h.status pre hpre⟩, fun h => ⟨?_, ?_⟩⟩
    · rintro pre' op rfl
      exact h.keeps pre' op hpre
    · exact fun pre op hpre => (h _ hpre).1 pre op rfl
    · exact fun pre hpre => (h pre hpre).2
  have halong : (∀ op ∈ tr, op.LoadsPlain) ↔ Along step (fun _ op => op.LoadsPlain) init tr :=
    along_const_iff.symm
  rw [hgood, halong]
  have hnil : ∀ pre' (op : Op V), [] = pre' ++ [op] → Keeps (run step init pre') op :=
    fun _ op h => absurd h.symm (List.append_ne_nil_of_right_ne_nil _ (List.cons_ne_nil op []))
  refine forall_prefix_iff_along_of ⟨hnil, apart_init.statusExact⟩ tr
    fun pre op _ halong _ => ?_
  rw [loadsPlain_iff (apart_run halong)]
  refine and_congr_left' ⟨fun h pre' op' heq => ?_, fun h => h pre op rfl⟩
  obtain ⟨rfl, hop⟩ := List.append_inj' heq rfl
  rw [← (List.cons.inj hop).1]
  exact h

/-- A version with a colon of one model, and a model whose id ends where it does. -/
def sharedKey : List (Op ℕ) :=
  let now : Datetime := ⟨2024, 1, 1, 0, 0, 0, 0⟩
  [.loadModel "a" "b:c" (.ok 1) now, .loadModel "a:b" "c" (.ok 2) now]

/-- The status of `a:b` lists the version of `a`, and loading `a:b` changes what `a` serves. -/
theorem sharedKey_meets :
    let s := run step init (sharedKey.take 1)
    let s' := run step init sharedKey
    (s.getModelStatus "a:b").versions.keys = ["b:c"] ∧ (s.getCurrentModel "a").1 = some 1 ∧
      (s'.getCurrentModel "a").1 = some 2 ∧ ¬ Isolated sharedKey := by
  have hone : ((run step init (sharedKey.take 1)).getCurrentModel "a").1 = some 1 := by
    decide +kernel
  have htwo : ((run step init sharedKey).getCurrentModel "a").1 = some 2 := by decide +kernel
  refine ⟨by decide +kernel, hone, htwo, fun h => ?_⟩
  have hsame := h.keeps (sharedKey.take 1) (.loadModel "a:b" "c" (.ok 2) ⟨2024, 1, 1, 0, 0, 0, 0⟩)
    List.prefix_rfl "a" (by decide)
  rw [hone] at hsame
  replace hsame : ((run step init sharedKey).getCurrentModel "a").1 = some 1 := hsame
  rw [htwo] at hsame
  cases hsame

end HotReloadManager

end PyStreamAI
