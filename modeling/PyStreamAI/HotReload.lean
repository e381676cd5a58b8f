import PyStreamAI.Machine
import PyStreamAI.Py.Basic
import PyStreamAI.Py.Colon
import PyStreamAI.Py.Dict

/-!
# Hot reloading

The versions of all models live in one dictionary under the text `model_id:version`, beside a
dictionary with the current version of each model. A loader is given by its outcome: an object, or
what it raises. Loaders that call back into the manager make the calls of a history that precede
their own.
-/

open Py

namespace PyStreamAI

/-- Versioned model state. -/
structure ModelVersion (V : Type*) where
  modelId : String
  version : String
  model : V
  loadedAt : Datetime
  requestsServed : ℕ
  active : Bool
  deriving DecidableEq

/-- `ModelVersion(model_id, version, model)`. -/
def ModelVersion.init {V : Type*} (modelId version : String) (model : V) (now : Datetime) :
    ModelVersion V where
  modelId
  version
  model
  loadedAt := now
  requestsServed := 0
  active := true

/-- Manage hot-reloading of models. -/
structure HotReloadManager (V : Type*) where
  models : Dict String (ModelVersion V)
  currentVersions : Dict String String
  deriving DecidableEq

/-- One version in the result of `get_model_status`. -/
structure VersionStatus where
  loadedAt : String
  requestsServed : ℕ
  active : Bool
  current : Bool
  deriving DecidableEq

/-- The result of `get_model_status`. -/
structure ModelStatus where
  modelId : String
  currentVersion : Option String
  versions : Dict String VersionStatus
  deriving DecidableEq

namespace HotReloadManager

variable {V : Type*}

/-- `HotReloadManager()`. -/
def init : HotReloadManager V := ⟨∅, ∅⟩

/-- `f"{model_id}:{version}"`. -/
def key (modelId version : String) : String := colonJoin modelId version

/-- Load a new model version. -/
def loadModel (s : HotReloadManager V) (modelId version : String) (modelLoader : Except Exn V)
    (now : Datetime) : Except Exn Unit × HotReloadManager V :=
  match modelLoader with
  | .error e => (.error e, s)
  | .ok model =>
    (.ok (),
      { models := s.models.set (key modelId version) (.init modelId version model now)
        currentVersions :=
          if s.currentVersions.contains modelId then s.currentVersions
          else s.currentVersions.set modelId version })

/-- `if k in self.models: self.models[k].active = False`. -/
def markInactive (models : Dict String (ModelVersion V)) (k : String) :
    Dict String (ModelVersion V) :=
  match models.get? k with
  | some modelVersion => models.set k { modelVersion with active := false }
  | none => models

/-- Activate a model version. -/
def activateVersion (s : HotReloadManager V) (modelId version : String) :
    Res (HotReloadManager V) Unit :=
  if s.models.contains (key modelId version) then
    (.ok (),
      { models :=
          match s.currentVersions.get? modelId with
          | some oldVersion =>
            if oldVersion = "" then s.models else markInactive s.models (key modelId oldVersion)
          | none => s.models
        currentVersions := s.currentVersions.set modelId version })
  else (.error ⟨"ValueError", "Model version not found: " ++ key modelId version⟩, s)

/-- Get the current model version. -/
def getCurrentModel (s : HotReloadManager V) (modelId : String) : Option V × HotReloadManager V :=
  match s.currentVersions.get? modelId with
  | none => (none, s)
  | some version =>
    if version = "" then (none, s)
    else match s.models.get? (key modelId version) with
    | none => (none, s)
    | some modelVersion =>
      (some modelVersion.model,
        { s with models := s.models.set (key modelId version)
                  { modelVersion with requestsServed := modelVersion.requestsServed + 1 } })

/-- The loop of `get_model_status` over the items `es`. -/
def statusLoop (modelId : String) (currentVersion : Option String) :
    List (String × ModelVersion V) → Dict String VersionStatus → Dict String VersionStatus
  | [], versions => versions
  | (k, modelVersion) :: es, versions =>
    if startswith k (modelId ++ ":") then
      statusLoop modelId currentVersion es (versions.set modelVersion.version
        { loadedAt := modelVersion.loadedAt.isoformat
          requestsServed := modelVersion.requestsServed
          active := modelVersion.active
          current := some modelVersion.version = currentVersion })
    else statusLoop modelId currentVersion es versions

/-- Get the model status. -/
def getModelStatus (s : HotReloadManager V) (modelId : String) : ModelStatus :=
  let currentVersion := s.currentVersions.get? modelId
  { modelId
    currentVersion
    versions := statusLoop modelId currentVersion s.models.entries ∅ }

/-! ## Histories of calls -/

/-- A call on the manager. -/
inductive Op (V : Type*)
  | loadModel (modelId version : String) (modelLoader : Except Exn V) (now : Datetime)
  | activateVersion (modelId version : String)
  | getCurrentModel (modelId : String)
  | getModelStatus (modelId : String)
  deriving DecidableEq

/-- The manager after a call, whether or not the call raised. -/
def step (s : HotReloadManager V) : Op V → HotReloadManager V
  | .loadModel modelId version modelLoader now => (s.loadModel modelId version modelLoader now).2
  | .activateVersion modelId version => (s.activateVersion modelId version).2
  | .getCurrentModel modelId => (s.getCurrentModel modelId).2
  | .getModelStatus _ => s

/-- The call raises. -/
def Raises (s : HotReloadManager V) : Op V → Prop
  | .loadModel modelId version modelLoader now =>
    ∃ e, (s.loadModel modelId version modelLoader now).1 = .error e
  | .activateVersion modelId version => ∃ e, (s.activateVersion modelId version).1 = .error e
  | .getCurrentModel _ => False
  | .getModelStatus _ => False

/-! ## What each call does -/

/-- The version is loaded: its key is in the dictionary. -/
def Loaded (s : HotReloadManager V) (modelId version : String) : Prop :=
  s.models.contains (key modelId version) = true

theorem loaded_iff {s : HotReloadManager V} {m v : String} :
    s.Loaded m v ↔ ∃ mv, s.models.get? (key m v) = some mv := Option.isSome_iff_exists

theorem raises_loadModel {s : HotReloadManager V} {m v : String} {loader : Except Exn V}
    {now : Datetime} : s.Raises (.loadModel m v loader now) ↔ ∃ e, loader = .error e := by
  cases loader with
  | error e => exact ⟨fun _ => ⟨e, rfl⟩, fun _ => ⟨e, rfl⟩⟩
  | ok obj =>
    constructor <;> rintro ⟨e, h⟩ <;> cases h

theorem raises_activateVersion {s : HotReloadManager V} {m v : String} :
    s.Raises (.activateVersion m v) ↔ ¬ s.Loaded m v := by
  show (∃ e, (s.activateVersion m v).1 = .error e) ↔ _
  unfold activateVersion Loaded
  split_ifs with h
  · simp [h]
  · simp [h]

theorem activateVersion_of_not_loaded {s : HotReloadManager V} {m v : String} (h : ¬ s.Loaded m v) :
    (s.activateVersion m v).2 = s := by
  unfold activateVersion
  exact congrArg Prod.snd (if_neg h)

/-- A call that raises leaves the manager as it is. -/
theorem step_of_raises {s : HotReloadManager V} {op : Op V} (h : s.Raises op) : s.step op = s := by
  cases op with
  | loadModel m v loader now =>
    obtain ⟨e, rfl⟩ := raises_loadModel.mp h
    rfl
  | activateVersion m v => exact activateVersion_of_not_loaded (raises_activateVersion.mp h)
  | getCurrentModel m => exact h.elim
  | getModelStatus m => rfl

section Load

variable {s : HotReloadManager V} {m v : String} {model : V} {now : Datetime}

theorem get?_loadModel (k : String) :
    (s.loadModel m v (.ok model) now).2.models.get? k =
      if k = key m v then some (.init m v model now) else s.models.get? k :=
  Dict.get?_set _ _ _ _

/-- A load sets the current version of its own model, if that has none. -/
theorem currentVersions_loadModel (m' : String) :
    (s.loadModel m v (.ok model) now).2.currentVersions.get? m' =
      if m' = m then (s.currentVersions.get? m).or (some v) else s.currentVersions.get? m' := by
  show (if _ then _ else _ : Dict String String).get? m' = _
  by_cases hnew : s.currentVersions.contains m = true
  · obtain ⟨w, hw⟩ := Option.isSome_iff_exists.mp hnew
    rw [if_pos hnew]
    split_ifs with heq
    · rw [heq, hw]
      rfl
    · rfl
  · have hnone : s.currentVersions.get? m = none := Option.not_isSome_iff_eq_none.mp hnew
    rw [if_neg hnew, Dict.get?_set, hnone]
    rfl

end Load

theorem get?_markInactive (models : Dict String (ModelVersion V)) (k k' : String) :
    (markInactive models k).get? k' =
      if k' = k then (models.get? k).map fun mv => { mv with active := false }
      else models.get? k' := by
  unfold markInactive
  cases h : models.get? k with
  | some mv => exact Dict.get?_set _ _ _ _
  | none =>
    by_cases hk : k' = k
    · rw [if_pos hk, hk, h]
      rfl
    · rw [if_neg hk]

section Activate

variable {s : HotReloadManager V} {m v : String} (h : s.Loaded m v)
include h

theorem currentVersions_activateVersion :
    (s.activateVersion m v).2.currentVersions = s.currentVersions.set m v := by
  unfold Loaded at h
  unfold activateVersion
  rw [if_pos h]

/-- Activating marks the version inactive that was current before. -/
theorem get?_activateVersion (k : String) :
    (s.activateVersion m v).2.models.get? k =
      if ∃ old, s.currentVersions.get? m = some old ∧ old ≠ "" ∧ k = key m old then
        (s.models.get? k).map fun mv => { mv with active := false }
      else s.models.get? k := by
  have hmodels : (s.activateVersion m v).2.models =
      match s.currentVersions.get? m with
      | some old => if old = "" then s.models else markInactive s.models (key m old)
      | none => s.models := by
    unfold Loaded at h
    unfold activateVersion
    rw [if_pos h]
  rw [hmodels]
  cases hold : s.currentVersions.get? m with
  | none => simp
  | some old =>
    dsimp only
    by_cases hempty : old = ""
    · simp [hempty]
    · rw [if_neg hempty, get?_markInactive]
      by_cases hk : k = key m old
      · simp [hk, hempty]
      · simp [hk]

end Activate

/-- Activating changes nothing of a version but its active flag. -/
theorem map_get?_activateVersion {β : Type*} (s : HotReloadManager V) (m v k : String)
    {f : ModelVersion V → β} (hf : ∀ mv : ModelVersion V, f { mv with active := false } = f mv) :
    ((s.activateVersion m v).2.models.get? k).map f = (s.models.get? k).map f := by
  by_cases h : s.Loaded m v
  · rw [get?_activateVersion h]
    split_ifs
    · rw [Option.map_map]
      exact congrArg (fun g => (s.models.get? k).map g) (funext hf)
    · rfl
  · rw [activateVersion_of_not_loaded h]

/-- The version that `get_current_model` serves. -/
def serving (s : HotReloadManager V) (modelId : String) : Option (ModelVersion V) :=
  (s.currentVersions.get? modelId).bind fun version =>
    if version = "" then none else s.models.get? (key modelId version)

theorem map_serving {β : Type*} {s s' : HotReloadManager V} {m : String} {f : ModelVersion V → β}
    (hcur : s'.currentVersions.get? m = s.currentVersions.get? m)
    (hmodels : ∀ k, (s'.models.get? k).map f = (s.models.get? k).map f) :
    (s'.serving m).map f = (s.serving m).map f := by
  unfold serving
  rw [hcur, Option.map_bind, Option.map_bind]
  refine Option.bind_congr fun v _ => ?_
  dsimp only [Function.comp_apply]
  split_ifs
  · rfl
  · exact hmodels _

theorem getCurrentModel_fst (s : HotReloadManager V) (m : String) :
    (s.getCurrentModel m).1 = (s.serving m).map ModelVersion.model := by
  unfold getCurrentModel serving
  cases s.currentVersions.get? m with
  | none => rfl
  | some v =>
    dsimp only
    by_cases hempty : v = ""
    · rw [if_pos hempty, Option.bind_some, if_pos hempty]
      rfl
    · rw [if_neg hempty, Option.bind_some, if_neg hempty]
      cases s.models.get? (key m v) <;> rfl

theorem currentVersions_getCurrentModel (s : HotReloadManager V) (m : String) :
    (s.getCurrentModel m).2.currentVersions = s.currentVersions := by
  unfold getCurrentModel
  split
  · rfl
  · split_ifs
    · rfl
    · split <;> rfl

/-- A request is counted at the version that served it. -/
theorem get?_getCurrentModel (s : HotReloadManager V) (m k : String) :
    (s.getCurrentModel m).2.models.get? k =
      if ∃ v, s.currentVersions.get? m = some v ∧ v ≠ "" ∧ k = key m v then
        (s.models.get? k).map fun mv => { mv with requestsServed := mv.requestsServed + 1 }
      else s.models.get? k := by
  unfold getCurrentModel
  cases s.currentVersions.get? m with
  | none => simp
  | some v =>
    dsimp only
    by_cases hempty : v = ""
    · simp [hempty]
    · rw [if_neg hempty]
      cases hmv : s.models.get? (key m v) with
      | none =>
        by_cases hk : k = key m v
        · simp [hk, hmv]
        · simp [hk]
      | some mv =>
        rw [Dict.get?_set]
        by_cases hk : k = key m v
        · simp [hk, hmv, hempty]
        · simp [hk]

/-- Serving changes nothing of a version but its counter. -/
theorem map_get?_getCurrentModel {β : Type*} (s : HotReloadManager V) (m k : String)
    {f : ModelVersion V → β}
    (hf : ∀ mv : ModelVersion V, f { mv with requestsServed := mv.requestsServed + 1 } = f mv) :
    ((s.getCurrentModel m).2.models.get? k).map f = (s.models.get? k).map f := by
  rw [get?_getCurrentModel]
  split_ifs
  · rw [Option.map_map]
    exact congrArg (fun g => (s.models.get? k).map g) (funext hf)
  · rfl

/-! ## The status -/

/-- What a status shows of a version. -/
def status (currentVersion : Option String) (modelVersion : ModelVersion V) : VersionStatus where
  loadedAt := modelVersion.loadedAt.isoformat
  requestsServed := modelVersion.requestsServed
  active := modelVersion.active
  current := some modelVersion.version = currentVersion

/-- The item is shown in the status of `modelId`, under `version`. -/
def ShownAs (modelId version : String) (e : String × ModelVersion V) : Prop :=
  startswith e.1 (modelId ++ ":") = true ∧ e.2.version = version

instance (modelId version : String) (e : String × ModelVersion V) :
    Decidable (ShownAs modelId version e) := instDecidableAnd

/-- The record from which the status of `modelId` is made for `version`: the last one shown. -/
def listed (s : HotReloadManager V) (modelId version : String) : Option (ModelVersion V) :=
  (s.models.entries.reverse.find? fun e => ShownAs modelId version e).map Prod.snd

theorem get?_statusLoop (m : String) (current : Option String) (es : List (String × ModelVersion V))
    (versions : Dict String VersionStatus) (v : String) :
    (statusLoop m current es versions).get? v =
      ((es.reverse.find? fun e => ShownAs m v e).map fun e => status current e.2).or
        (versions.get? v) := by
  induction es generalizing versions with
  | nil => rfl
  | cons e es ih =>
    obtain ⟨k, mv⟩ := e
    rw [statusLoop, List.reverse_cons, List.find?_append]
    cases hfound : es.reverse.find? fun e => ShownAs m v e with
    | some e =>
      rw [hfound] at ih
      split_ifs
      · exact ih _
      · exact ih _
    | none =>
      rw [hfound] at ih
      by_cases hk : startswith k (m ++ ":") = true
      · rw [if_pos hk, ih, Dict.get?_set]
        by_cases hv : mv.version = v
        · have hshown : ShownAs m v (k, mv) := ⟨hk, hv⟩
          simp [hshown, hv, status]
        · have hshown : ¬ ShownAs m v (k, mv) := fun h => hv h.2
          simp [hshown, Ne.symm hv]
      · have hshown : ¬ ShownAs m v (k, mv) := fun h => hk h.1
        rw [if_neg hk, ih]
        simp [hshown]

/-- The status shows for each version the record that is listed. -/
theorem get?_versions_getModelStatus (s : HotReloadManager V) (m v : String) :
    (s.getModelStatus m).versions.get? v =
      (s.listed m v).map (status (s.currentVersions.get? m)) := by
  unfold getModelStatus listed
  rw [get?_statusLoop, Option.map_map]
  exact Option.or_none

theorem mem_versions_getModelStatus {s : HotReloadManager V} {m v : String} :
    v ∈ (s.getModelStatus m).versions.keys ↔ (s.listed m v).isSome = true := by
  rw [← Dict.contains_iff_mem, Dict.contains, get?_versions_getModelStatus, Option.isSome_map]

end HotReloadManager

end PyStreamAI
