import PyStreamAI.HotReload

/-!
# Hot reloading as a nested map

What the caller of the manager saw, newest call first, decides what a model with plain ids serves:
the object last loaded as its current version (`getCurrentModel_latestLoad`). `Refines` connects
the two dictionaries to this history, and every call keeps it (`Refines.step`).
-/

open Py Machine

namespace PyStreamAI

namespace HotReloadManager

variable {V : Type*}

/-! ## The history -/

/-- What the caller of a call that returned saw. -/
inductive Event (V : Type*)
  | loaded (modelId version : String) (model : V)
  | activated (modelId version : String)
  | got (modelId : String) (model : Option V)

/-- The event of a call. A call that raises has none. -/
def emit (s : HotReloadManager V) : Op V → List (Event V)
  | .loadModel modelId version (.ok model) _ => [.loaded modelId version model]
  | .loadModel _ _ (.error _) _ => []
  | .activateVersion modelId version =>
    match (s.activateVersion modelId version).1 with
    | .ok _ => [.activated modelId version]
    | .error _ => []
  | .getCurrentModel modelId => [.got modelId (s.getCurrentModel modelId).1]
  | .getModelStatus _ => []

/-- What was seen in a history of calls, newest first. -/
def past (tr : List (Op V)) : List (Event V) := (log step emit init tr).reverse

theorem past_snoc (tr : List (Op V)) (op : Op V) :
    past (tr ++ [op]) = (emit (run step init tr) op).reverse ++ past tr := by
  unfold past
  rw [log_snoc, List.reverse_append]

theorem emit_activateVersion {s : HotReloadManager V} {m v : String} (h : s.Loaded m v) :
    s.emit (.activateVersion m v) = [.activated m v] := by
  unfold Loaded at h
  unfold emit activateVersion
  simp only [if_pos h]

theorem emit_activateVersion_of_not {s : HotReloadManager V} {m v : String} (h : ¬ s.Loaded m v) :
    s.emit (.activateVersion m v) = [] := by
  unfold Loaded at h
  unfold emit activateVersion
  simp only [if_neg h]

/-- The object that the event loads as the version `v` of `m`. -/
def loadOf (m v : String) : Event V → Option V
  | .loaded m' v' model => if m' = m ∧ v' = v then some model else none
  | _ => none

/-- The version of `m` that the event loads. -/
def versionLoaded (m : String) : Event V → Option String
  | .loaded m' v' _ => if m' = m then some v' else none
  | _ => none

/-- The version of `m` that the event activates. -/
def versionActivated (m : String) : Event V → Option String
  | .activated m' v' => if m' = m then some v' else none
  | _ => none

/-- The object of the latest load of the version `v` of `m`. -/
def latestLoad (m v : String) (past : List (Event V)) : Option V := past.findSome? (loadOf m v)

/-- The current version of `m`: the last one activated, or else the first one loaded. -/
def currentVersion (m : String) (past : List (Event V)) : Option String :=
  (past.findSome? (versionActivated m)).or (past.reverse.findSome? (versionLoaded m))

/-- How often the version `v` of `m` was served since its latest load. -/
def servedSinceLoad (m v : String) : List (Event V) → ℕ
  | [] => 0
  | .loaded m' v' _ :: past => if m' = m ∧ v' = v then 0 else servedSinceLoad m v past
  | .activated _ _ :: past => servedSinceLoad m v past
  | .got m' model :: past =>
    if m' = m ∧ currentVersion m past = some v ∧ model.isSome then servedSinceLoad m v past + 1
    else servedSinceLoad m v past

theorem latestLoad_cons (m v : String) (e : Event V) (past : List (Event V)) :
    latestLoad m v (e :: past) = (loadOf m v e).or (latestLoad m v past) := by
  unfold latestLoad
  rw [List.findSome?_cons]
  cases loadOf m v e <;> rfl

theorem currentVersion_loaded (m m' v' : String) (model : V) (past : List (Event V)) :
    currentVersion m (.loaded m' v' model :: past) =
      if m' = m then (currentVersion m past).or (some v') else currentVersion m past := by
  unfold currentVersion
  rw [List.findSome?_cons, List.reverse_cons, List.findSome?_append]
  by_cases h : m' = m
  · simp [versionLoaded, versionActivated, h]
  · simp [versionLoaded, versionActivated, h]

theorem currentVersion_activated (m m' v' : String) (past : List (Event V)) :
    currentVersion m (.activated m' v' :: past) =
      if m' = m then some v' else currentVersion m past := by
  unfold currentVersion
  rw [List.findSome?_cons, List.reverse_cons, List.findSome?_append]
  by_cases h : m' = m
  · simp [versionActivated, h]
  · simp [versionLoaded, versionActivated, h]

theorem currentVersion_got (m m' : String) (model : Option V) (past : List (Event V)) :
    currentVersion m (.got m' model :: past) = currentVersion m past := by
  unfold currentVersion
  rw [List.findSome?_cons, List.reverse_cons, List.findSome?_append]
  simp [versionLoaded, versionActivated]

/-- A model has a current version once some version of it was loaded. -/
theorem isSome_currentVersion {m v : String} {past : List (Event V)}
    (h : (latestLoad m v past).isSome) : (currentVersion m past).isSome := by
  obtain ⟨e, he, hload⟩ := List.findSome?_isSome_iff.mp h
  unfold currentVersion
  rw [Option.isSome_or, Bool.or_eq_true]
  refine Or.inr (List.findSome?_isSome_iff.mpr ⟨e, List.mem_reverse.mpr he, ?_⟩)
  cases e with
  | loaded m' v' model =>
    dsimp only [loadOf, versionLoaded] at hload ⊢
    split_ifs at hload with heq
    · rw [if_pos heq.1]
      rfl
    · cases hload
  | activated m' v' => cases hload
  | got m' model => cases hload

/-! ## Plain names -/

/-- No `:` in the model id and a version that is not empty. -/
def Op.Plain : Op V → Prop
  | .loadModel modelId version _ _ => ':' ∉ modelId.toList ∧ version ≠ ""
  | .activateVersion modelId version => ':' ∉ modelId.toList ∧ version ≠ ""
  | .getCurrentModel modelId => ':' ∉ modelId.toList
  | .getModelStatus modelId => ':' ∉ modelId.toList

theorem key_inj {m m' v v' : String} (hm : ':' ∉ m.toList) (hm' : ':' ∉ m'.toList) :
    key m v = key m' v' ↔ m = m' ∧ v = v' := by
  constructor
  · exact colonJoin_inj_of_left hm hm'
  · rintro ⟨rfl, rfl⟩
    rfl

/-! ## The refinement -/

/-- The two dictionaries say what the history says. -/
structure Refines (past : List (Event V)) (s : HotReloadManager V) : Prop where
  current : ∀ m, s.currentVersions.get? m = currentVersion m past
  version : ∀ m v, ':' ∉ m.toList →
    (s.models.get? (key m v)).map (fun mv => (mv.model, mv.requestsServed)) =
      (latestLoad m v past).map fun model => (model, servedSinceLoad m v past)
  loaded : ∀ m v, currentVersion m past = some v →
    ':' ∉ m.toList ∧ v ≠ "" ∧ (latestLoad m v past).isSome

theorem refines_init : Refines [] (init : HotReloadManager V) where
  current _ := rfl
  version _ _ _ := rfl
  loaded _ _ h := by cases h

theorem Refines.loaded_iff {past : List (Event V)} {s : HotReloadManager V} (h : Refines past s)
    {m v : String} (hm : ':' ∉ m.toList) : s.Loaded m v ↔ (latestLoad m v past).isSome := by
  have hversion := congrArg Option.isSome (h.version m v hm)
  rw [Option.isSome_map, Option.isSome_map] at hversion
  unfold Loaded Dict.contains
  rw [hversion]

theorem Refines.loadModel {past : List (Event V)} {s : HotReloadManager V} (h : Refines past s)
    {m v : String} (hm : ':' ∉ m.toList) (hv : v ≠ "") (model : V) (now : Datetime) :
    Refines (.loaded m v model :: past) (s.loadModel m v (.ok model) now).2 := by
  refine ⟨fun m' => ?_, fun m' v' hm' => ?_, fun m' v' hcur => ?_⟩
  · rw [currentVersion_loaded, currentVersions_loadModel, h.current, h.current]
    by_cases heq : m' = m
    · rw [if_pos heq, if_pos heq.symm, heq]
    · rw [if_neg heq, if_neg (Ne.symm heq)]
  · rw [get?_loadModel, latestLoad_cons]
    simp only [key_inj hm' hm, loadOf, servedSinceLoad]
    by_cases heq : m' = m ∧ v' = v
    · obtain ⟨rfl, rfl⟩ := heq
      simp [ModelVersion.init]
    · have heq' : ¬ (m = m' ∧ v = v') := fun e => heq ⟨e.1.symm, e.2.symm⟩
      rw [if_neg heq, if_neg heq', if_neg heq', Option.none_or]
      exact h.version m' v' hm'
  · rw [currentVersion_loaded] at hcur
    rw [latestLoad_cons]
    split_ifs at hcur with heq
    · subst heq
      cases hold : currentVersion m past with
      | none =>
        rw [hold] at hcur
        rw [← Option.some.inj hcur]
        exact ⟨hm, hv, by simp [loadOf]⟩
      | some w =>
        rw [hold] at hcur
        rw [← Option.some.inj hcur]
        obtain ⟨-, hw, hload⟩ := h.loaded m w hold
        exact ⟨hm, hw, by rw [Option.isSome_or, hload, Bool.or_true]⟩
    · obtain ⟨hm', hv', hload⟩ := h.loaded m' v' hcur
      exact ⟨hm', hv', by rw [Option.isSome_or, hload, Bool.or_true]⟩

theorem Refines.activateVersion {past : List (Event V)} {s : HotReloadManager V}
    (h : Refines past s) {m v : String} (hm : ':' ∉ m.toList) (hv : v ≠ "") (hl : s.Loaded m v) :
    Refines (.activated m v :: past) (s.activateVersion m v).2 := by
  refine ⟨fun m' => ?_, fun m' v' hm' => ?_, fun m' v' hcur => ?_⟩
  · rw [currentVersion_activated, ← h.current, currentVersions_activateVersion hl, Dict.get?_set]
    simp only [eq_comm]
  · rw [map_get?_activateVersion s m v _ fun _ => rfl, latestLoad_cons]
    exact h.version m' v' hm'
  · rw [currentVersion_activated] at hcur
    rw [latestLoad_cons]
    split_ifs at hcur with heq
    · subst heq
      rw [← Option.some.inj hcur]
      exact ⟨hm, hv, (h.loaded_iff hm).mp hl⟩
    · exact h.loaded m' v' hcur

/-- What the current version of a model serves. -/
theorem Refines.serving {past : List (Event V)} {s : HotReloadManager V} (h : Refines past s)
    (m : String) : s.serving m =
      (currentVersion m past).bind fun v => s.models.get? (key m v) := by
  unfold HotReloadManager.serving
  rw [h.current]
  refine Option.bind_congr fun v hv => ?_
  rw [if_neg (h.loaded m v hv).2.1]

theorem Refines.getCurrentModel_fst {past : List (Event V)} {s : HotReloadManager V}
    (h : Refines past s) (m : String) :
    (s.getCurrentModel m).1 = (currentVersion m past).bind fun v => latestLoad m v past := by
  rw [HotReloadManager.getCurrentModel_fst, h.serving, Option.map_bind]
  refine Option.bind_congr fun v hv => ?_
  have hversion := congrArg (Option.map Prod.fst) (h.version m v (h.loaded m v hv).1)
  rw [Option.map_map, Option.map_map] at hversion
  exact hversion.trans Option.map_id'

theorem Refines.getCurrentModel {past : List (Event V)} {s : HotReloadManager V}
    (h : Refines past s) (m : String) :
    Refines (.got m (s.getCurrentModel m).1 :: past) (s.getCurrentModel m).2 := by
  refine ⟨fun m' => ?_, fun m' v' hm' => ?_, fun m' v' hcur => ?_⟩
  · rw [currentVersion_got, currentVersions_getCurrentModel, h.current]
  · rw [latestLoad_cons, get?_getCurrentModel]
    have hserved : (∃ v, s.currentVersions.get? m = some v ∧ v ≠ "" ∧ key m' v' = key m v) ↔
        m = m' ∧ currentVersion m' past = some v' ∧ (s.getCurrentModel m).1.isSome := by
      rw [h.current, h.getCurrentModel_fst]
      constructor
      · rintro ⟨v, hcur, -, hkey⟩
        obtain ⟨hm, -, hload⟩ := h.loaded m v hcur
        obtain ⟨rfl, rfl⟩ := (key_inj hm' hm).mp hkey
        refine ⟨rfl, hcur, ?_⟩
        rw [hcur]
        exact hload
      · rintro ⟨rfl, hcur, -⟩
        exact ⟨v', hcur, (h.loaded m v' hcur).2.1, rfl⟩
    have hversion := h.version m' v' hm'
    simp only [hserved, servedSinceLoad, loadOf, Option.none_or]
    by_cases heq : m = m' ∧ currentVersion m' past = some v' ∧ (s.getCurrentModel m).1.isSome
    · rw [if_pos heq, if_pos heq, Option.map_map]
      have hcount := congrArg (Option.map fun p : V × ℕ => (p.1, p.2 + 1)) hversion
      rw [Option.map_map, Option.map_map] at hcount
      exact hcount
    · rw [if_neg heq, if_neg heq]
      exact hversion
  · rw [currentVersion_got] at hcur
    rw [latestLoad_cons]
    exact h.loaded m' v' hcur

/-- **One step of the refinement.** -/
theorem Refines.step {past : List (Event V)} {s : HotReloadManager V} (h : Refines past s)
    {op : Op V} (hop : op.Plain) : Refines ((s.emit op).reverse ++ past) (s.step op) := by
  cases op with
  | loadModel m v loader now =>
    cases loader with
    | error e => exact h
    | ok model => exact h.loadModel hop.1 hop.2 model now
  | activateVersion m v =>
    by_cases hl : s.Loaded m v
    · rw [emit_activateVersion hl]
      exact h.activateVersion hop.1 hop.2 hl
    · rw [emit_activateVersion_of_not hl]
      show Refines past (s.activateVersion m v).2
      rw [activateVersion_of_not_loaded hl]
      exact h
  | getCurrentModel m => exact h.getCurrentModel m
  | getModelStatus m => exact h

/-- Every history of calls with plain names is refined. -/
theorem refines_run {tr : List (Op V)} (hplain : ∀ op ∈ tr, op.Plain) :
    Refines (past tr) (run step init tr) := by
  refine Along.history (P := fun tr s => Refines (past tr) s) refines_init (fun tr op h hop => ?_)
    (along_of_forall hplain)
  rw [past_snoc]
  exact h.step hop

/-- **The nested map.** After every history of calls with plain names, a model serves the object
last loaded as its current version, and nothing when none was loaded; activating raises exactly for
versions never loaded; calls that raise change nothing; and each version counts the requests it
served since its latest load. -/
theorem refines_nestedMap {tr : List (Op V)} (hplain : ∀ op ∈ tr, op.Plain) :
    let s : HotReloadManager V := run step init tr
    (∀ m, (s.getCurrentModel m).1 =
        (currentVersion m (past tr)).bind fun v => latestLoad m v (past tr)) ∧
      (∀ m, (s.getCurrentModel m).1 = none ↔ ∀ v, latestLoad m v (past tr) = none) ∧
      (∀ m v, ':' ∉ m.toList →
        (s.Raises (.activateVersion m v) ↔ latestLoad m v (past tr) = none)) ∧
      (∀ op, s.Raises op → s.step op = s) ∧
      (∀ m v model, ':' ∉ m.toList → latestLoad m v (past tr) = some model →
        ∃ mv, s.models.get? (key m v) = some mv ∧ mv.model = model ∧
          mv.requestsServed = servedSinceLoad m v (past tr)) := by
  intro s
  have h : Refines (past tr) s := refines_run hplain
  refine ⟨h.getCurrentModel_fst, fun m => ?_, fun m v hm => ?_, fun op => step_of_raises,
    fun m v model hm hload => ?_⟩
  · rw [h.getCurrentModel_fst]
    constructor
    · intro hnone v
      by_contra hload
      obtain ⟨w, hw⟩ := Option.isSome_iff_exists.mp
        (isSome_currentVersion (Option.isSome_iff_ne_none.mpr hload))
      rw [hw] at hnone
      have hloaded := (h.loaded m w hw).2.2
      rw [Option.bind_some] at hnone
      rw [hnone] at hloaded
      cases hloaded
    · intro hnever
      cases hcur : currentVersion m (past tr) with
      | none => rfl
      | some v => exact hnever v
  · rw [raises_activateVersion, h.loaded_iff hm, Option.not_isSome_iff_eq_none]
  · have hversion := h.version m v hm
    rw [hload, Option.map_some, Option.map_eq_some_iff] at hversion
    obtain ⟨mv, hmv, heq⟩ := hversion
    exact ⟨mv, hmv, congrArg Prod.fst heq, congrArg Prod.snd heq⟩

/-- Two versions of one model: the second is activated, serves twice, and a failed reload of it
changes nothing. -/
def rolledForward : List (Op ℕ) :=
  let now : Datetime := ⟨2024, 1, 1, 0, 0, 0, 0⟩
  [.loadModel "m" "v1" (.ok 1) now, .loadModel "m" "v2" (.ok 2) now, .activateVersion "m" "v2",
    .getCurrentModel "m", .getCurrentModel "m",
    .loadModel "m" "v2" (.error (.exception ⟨"OSError", "gone"⟩)) now]

theorem plain_rolledForward : ∀ op ∈ rolledForward, op.Plain := by
  have hid : ':' ∉ "m".toList := by decide
  intro op hop
  unfold rolledForward at hop
  simp only [List.mem_cons, List.not_mem_nil, or_false] at hop
  rcases hop with rfl | rfl | rfl | rfl | rfl | rfl
  · exact ⟨hid, by decide⟩
  · exact ⟨hid, by decide⟩
  · exact ⟨hid, by decide⟩
  · exact hid
  · exact hid
  · exact ⟨hid, by decide⟩

theorem rolledForward_serves :
    let s : HotReloadManager ℕ := run step init rolledForward
    (s.getCurrentModel "m").1 = some 2 ∧
      ∃ mv, s.models.get? (key "m" "v2") = some mv ∧ mv.model = 2 ∧ mv.requestsServed = 2 := by
  intro s
  have h := refines_nestedMap plain_rolledForward
  exact ⟨(h.1 "m").trans (by decide +kernel),
    h.2.2.2.2 "m" "v2" 2 (by decide) (by decide +kernel)⟩

end HotReloadManager

end PyStreamAI
