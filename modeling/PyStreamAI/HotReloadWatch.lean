import Mathlib.Algebra.Order.Field.Rat
import Mathlib.Logic.Function.Basic
import PyStreamAI.HotReload

/-!
# Watched models

`watch_for_updates` starts a thread that polls a file and reloads the model when the file got newer.
Any number of these threads run beside the callers of the manager; its methods hold the lock, so
the threads interleave at the calls they make (`Watched.step`). Reloading never interrupts a model
that is served (`no_downtime`), and a thread reloads exactly when it reads a modification time newer
than all it read before (`reloads_on_record`).
-/

open Py Machine

namespace PyStreamAI

/-- `d.strftime("%Y%m%d-%H%M%S")`. -/
def versionStamp (d : Datetime) : String :=
  decPad 4 d.year ++ decPad 2 d.month ++ decPad 2 d.day ++ "-" ++
    decPad 2 d.hour ++ decPad 2 d.minute ++ decPad 2 d.second

/-- Where the thread of a watcher is. -/
inductive WatcherPc (V : Type*)
  /-- About to read the modification time for the first time. -/
  | starting
  /-- In `time.sleep`, about to read the modification time. -/
  | sleeping (lastMtime : ℚ)
  /-- About to call `reload_callback`. -/
  | reloading (lastMtime : ℚ)
  /-- With the new model, about to call `load_model`. -/
  | loading (lastMtime : ℚ) (newModel : V)
  /-- About to call `activate_version`. -/
  | activating (lastMtime : ℚ) (version : String)
  /-- Ended by an exception that nothing catches. -/
  | dead
  deriving DecidableEq

namespace HotReloadManager

variable {V : Type*}

/-! ## Availability -/

/-- The version string of a call is not empty. -/
def Op.Named : Op V → Prop
  | .loadModel _ version _ _ => version ≠ ""
  | .activateVersion _ version => version ≠ ""
  | .getCurrentModel _ => True
  | .getModelStatus _ => True

instance : (op : Op V) → Decidable op.Named
  | .loadModel _ version _ _ => inferInstanceAs (Decidable (version ≠ ""))
  | .activateVersion _ version => inferInstanceAs (Decidable (version ≠ ""))
  | .getCurrentModel _ => isTrue trivial
  | .getModelStatus _ => isTrue trivial

/-- Every current version is loaded. -/
def Sound (s : HotReloadManager V) : Prop :=
  ∀ m v, s.currentVersions.get? m = some v → v ≠ "" ∧ s.Loaded m v

/-- `get_current_model` has a model to return. -/
def Available (s : HotReloadManager V) (m : String) : Prop := (s.getCurrentModel m).1.isSome = true

/-- A version that is loaded stays loaded. -/
theorem loaded_step {s : HotReloadManager V} {k : String} (h : s.models.contains k = true)
    (op : Op V) : (s.step op).models.contains k = true := by
  unfold Dict.contains at h ⊢
  cases op with
  | getModelStatus m => exact h
  | getCurrentModel m =>
    show ((s.getCurrentModel m).2.models.get? k).isSome = true
    rw [get?_getCurrentModel]
    split_ifs
    · rw [Option.isSome_map]
      exact h
    · exact h
  | loadModel m v loader now =>
    cases loader with
    | error e => exact h
    | ok obj =>
      show ((s.loadModel m v (.ok obj) now).2.models.get? k).isSome = true
      rw [get?_loadModel]
      split_ifs
      · rfl
      · exact h
  | activateVersion m v =>
    show ((s.activateVersion m v).2.models.get? k).isSome = true
    by_cases hl : s.Loaded m v
    · rw [get?_activateVersion hl]
      split_ifs
      · rw [Option.isSome_map]
        exact h
      · exact h
    · rw [activateVersion_of_not_loaded hl]
      exact h

/-- A current version of a model is the one before a call, or the one the call names and loads. -/
theorem currentVersions_step {s : HotReloadManager V} {op : Op V} {m v : String}
    (h : (s.step op).currentVersions.get? m = some v) (hop : op.Named) :
    s.currentVersions.get? m = some v ∨ v ≠ "" ∧ (s.step op).Loaded m v := by
  cases op with
  | getModelStatus m' => exact Or.inl h
  | getCurrentModel m' =>
    left
    rw [← s.currentVersions_getCurrentModel m']
    exact h
  | loadModel m' v' loader now =>
    cases loader with
    | error e => exact Or.inl h
    | ok obj =>
      rw [show (s.step (.loadModel m' v' (.ok obj) now)).currentVersions.get? m = _ from
        currentVersions_loadModel m] at h
      split_ifs at h with hm
      · subst hm
        cases hcur : s.currentVersions.get? m with
        | some w =>
          rw [hcur] at h
          exact Or.inl h
        | none =>
          rw [hcur] at h
          obtain rfl := Option.some.inj h
          refine Or.inr ⟨hop, ?_⟩
          show ((s.loadModel m v' (.ok obj) now).2.models.get? (key m v')).isSome = true
          rw [get?_loadModel, if_pos rfl]
          rfl
      · exact Or.inl h
  | activateVersion m' v' =>
    by_cases hl : s.Loaded m' v'
    · rw [show (s.step (.activateVersion m' v')).currentVersions = _ from
        currentVersions_activateVersion hl, Dict.get?_set] at h
      split_ifs at h with hm
      · obtain rfl := Option.some.inj h
        exact Or.inr ⟨hop, hm ▸ loaded_step hl _⟩
      · exact Or.inl h
    · rw [show s.step (.activateVersion m' v') = s from activateVersion_of_not_loaded hl] at h
      exact Or.inl h

theorem Sound.step {s : HotReloadManager V} (h : s.Sound) {op : Op V} (hop : op.Named) :
    (s.step op).Sound := by
  intro m v hv
  rcases currentVersions_step hv hop with hold | hnew
  · exact ⟨(h m v hold).1, loaded_step (h m v hold).2 op⟩
  · exact hnew

/-- No call takes the current version of a model away. -/
theorem contains_currentVersions_step {s : HotReloadManager V} {m : String}
    (h : s.currentVersions.contains m = true) (op : Op V) :
    (s.step op).currentVersions.contains m = true := by
  unfold Dict.contains at h ⊢
  cases op with
  | getModelStatus m' => exact h
  | getCurrentModel m' =>
    show ((s.getCurrentModel m').2.currentVersions.get? m).isSome = true
    rw [currentVersions_getCurrentModel]
    exact h
  | loadModel m' v' loader now =>
    cases loader with
    | error e => exact h
    | ok obj =>
      rw [show (s.step (.loadModel m' v' (.ok obj) now)).currentVersions.get? m = _ from
        currentVersions_loadModel m]
      split_ifs
      · cases s.currentVersions.get? m' <;> rfl
      · exact h
  | activateVersion m' v' =>
    by_cases hl : s.Loaded m' v'
    · rw [show (s.step (.activateVersion m' v')).currentVersions = _ from
        currentVersions_activateVersion hl, Dict.get?_set]
      split_ifs
      · rfl
      · exact h
    · rw [show s.step (.activateVersion m' v') = s from activateVersion_of_not_loaded hl]
      exact h

theorem Sound.available_iff {s : HotReloadManager V} (h : s.Sound) {m : String} :
    s.Available m ↔ s.currentVersions.contains m = true := by
  unfold Available
  rw [getCurrentModel_fst, Option.isSome_map]
  unfold serving Dict.contains
  cases hcur : s.currentVersions.get? m with
  | none => simp
  | some v =>
    obtain ⟨hne, hloaded⟩ := h m v hcur
    rw [Option.bind_some, if_neg hne]
    exact iff_of_true hloaded rfl

/-- The object that a call stores under the key `k`. -/
def Op.loadedUnder (k : String) : Op V → Option V
  | .loadModel m v (.ok obj) _ => if key m v = k then some obj else none
  | .loadModel _ _ (.error _) _ => none
  | .activateVersion _ _ => none
  | .getCurrentModel _ => none
  | .getModelStatus _ => none

/-- The object last stored under the key `k` in a history. -/
def lastLoaded (tr : List (Op V)) (k : String) : Option V := tr.reverse.findSome? (Op.loadedUnder k)

theorem model_step (s : HotReloadManager V) (op : Op V) (k : String) :
    ((s.step op).models.get? k).map ModelVersion.model =
      (op.loadedUnder k).or ((s.models.get? k).map ModelVersion.model) := by
  cases op with
  | getModelStatus m => rfl
  | getCurrentModel m => exact s.map_get?_getCurrentModel m k fun _ => rfl
  | activateVersion m v => exact s.map_get?_activateVersion m v k fun _ => rfl
  | loadModel m v loader now =>
    cases loader with
    | error e => rfl
    | ok obj =>
      show ((s.loadModel m v (.ok obj) now).2.models.get? k).map _ = _
      rw [get?_loadModel]
      unfold Op.loadedUnder
      dsimp only
      by_cases hk : key m v = k
      · rw [if_pos hk.symm, if_pos hk]
        rfl
      · rw [if_neg (Ne.symm hk), if_neg hk]
        rfl

/-- What is stored under a key is what was last loaded under it. -/
theorem model_run (tr : List (Op V)) (k : String) :
    ((run step init tr).models.get? k).map ModelVersion.model = lastLoaded tr k := by
  induction tr using List.reverseRecOn with
  | nil => rfl
  | append_singleton tr op ih =>
    unfold lastLoaded at ih ⊢
    rw [run_snoc, model_step, ih, List.reverse_append, List.reverse_singleton,
      List.singleton_append, List.findSome?_cons]
    cases op.loadedUnder k <;> rfl

end HotReloadManager

/-- What a thread finds when it asks: the modification time of its file, what `reload_callback`
makes of it, and two readings of the clock. -/
structure Surroundings (V : Type*) where
  mtime : Except Exn ℚ
  newModel : Except Exn V
  now : Datetime
  loadedAt : Datetime
  deriving DecidableEq

namespace WatcherPc

variable {V : Type*}

/-- Where the thread goes from `pc`. -/
def next (pc : WatcherPc V) (env : Surroundings V) : WatcherPc V :=
  match pc with
  | .starting =>
    match env.mtime with
    | .ok mtime => .sleeping mtime
    | .error _ => .dead
  | .sleeping lastMtime =>
    match env.mtime with
    | .ok currentMtime =>
      if lastMtime < currentMtime then .reloading currentMtime else .sleeping lastMtime
    | .error (.exception _) => .sleeping lastMtime
    | .error (.base _) => .dead
  | .reloading lastMtime =>
    match env.newModel with
    | .ok newModel => .loading lastMtime newModel
    | .error (.exception _) => .sleeping lastMtime
    | .error (.base _) => .dead
  | .loading lastMtime _ => .activating lastMtime (versionStamp env.now)
  | .activating lastMtime _ => .sleeping lastMtime
  | .dead => .dead

/-- The call on the manager that the thread of a watcher of `modelId` makes on the way. -/
def call (modelId : String) (pc : WatcherPc V) (env : Surroundings V) :
    Option (HotReloadManager.Op V) :=
  match pc with
  | .loading _ newModel =>
    some (.loadModel modelId (versionStamp env.now) (.ok newModel) env.loadedAt)
  | .activating _ version => some (.activateVersion modelId version)
  | .starting => none
  | .sleeping _ => none
  | .reloading _ => none
  | .dead => none

/-- The modification time the thread reads on the way. -/
def reads (pc : WatcherPc V) (env : Surroundings V) : List ℚ :=
  match pc with
  | .starting => env.mtime.toOption.toList
  | .sleeping _ => env.mtime.toOption.toList
  | .reloading _ => []
  | .loading _ _ => []
  | .activating _ _ => []
  | .dead => []

/-- The end of the call of `reload_callback` the thread makes on the way. -/
def reloads (pc : WatcherPc V) (env : Surroundings V) : List (Except Exn V) :=
  match pc with
  | .reloading _ => [env.newModel]
  | .starting => []
  | .sleeping _ => []
  | .loading _ _ => []
  | .activating _ _ => []
  | .dead => []

/-- A thread about to activate a version has just loaded it. -/
theorem loading_of_next {pc : WatcherPc V} {env : Surroundings V} {last : ℚ} {v : String}
    (h : pc.next env = .activating last v) :
    ∃ newModel, pc = .loading last newModel ∧ v = versionStamp env.now := by
  unfold next at h
  split at h <;> first
    | cases h; exact ⟨_, rfl, rfl⟩
    | cases h
    | (split at h <;> first | cases h | (split_ifs at h))

end WatcherPc

/-- The manager and the threads that watch for it. -/
structure Watched (ι V : Type*) where
  manager : HotReloadManager V
  watchers : ι → WatcherPc V

namespace Watched

variable {ι V : Type*} [DecidableEq ι]

def init : Watched ι V := ⟨.init, fun _ => .starting⟩

/-- What can happen next: a caller uses the manager, or a thread runs to its next call. -/
inductive Action (ι V : Type*)
  | call (op : HotReloadManager.Op V)
  | run (i : ι) (env : Surroundings V)
  deriving DecidableEq

variable (modelIds : ι → String)

/-- The call on the manager that an action makes; thread `i` watches the model `modelIds i`. -/
def managerCall (s : Watched ι V) : Action ι V → Option (HotReloadManager.Op V)
  | .call op => some op
  | .run i env => (s.watchers i).call (modelIds i) env

def step (s : Watched ι V) (a : Action ι V) : Watched ι V where
  manager := match s.managerCall modelIds a with
    | some op => s.manager.step op
    | none => s.manager
  watchers := match a with
    | .call _ => s.watchers
    | .run i env => Function.update s.watchers i ((s.watchers i).next env)

/-- The calls on the manager in a history. -/
def managerCalls (s : Watched ι V) (tr : List (Action ι V)) : List (HotReloadManager.Op V) :=
  log (step modelIds) (fun s a => (s.managerCall modelIds a).toList) s tr

/-- The manager sees a history of calls, whoever makes them. -/
theorem manager_run (s : Watched ι V) (tr : List (Action ι V)) :
    (run (step modelIds) s tr).manager =
      run HotReloadManager.step s.manager (managerCalls modelIds s tr) := by
  induction tr using List.reverseRecOn with
  | nil => rfl
  | append_singleton tr a ih =>
    unfold managerCalls at ih ⊢
    rw [log_snoc, run_append _ _ (log _ _ s tr), run_snoc, ← ih]
    generalize run (step modelIds) s tr = s'
    show (match s'.managerCall modelIds a with | some op => _ | none => _) = _
    cases s'.managerCall modelIds a <;> rfl

/-! ## No downtime -/

/-- The calls of others name their versions. -/
def Action.Named : Action ι V → Prop
  | .call op => op.Named
  | .run _ _ => True

instance : (a : Action ι V) → Decidable a.Named
  | .call op => inferInstanceAs (Decidable op.Named)
  | .run _ _ => isTrue trivial

omit [DecidableEq ι] in
theorem versionStamp_ne_empty (d : Datetime) : versionStamp d ≠ "" := by
  intro h
  have hlength := congrArg String.length h
  unfold versionStamp at hlength
  simp only [String.length_append] at hlength
  have hdash : "-".length = 1 := rfl
  have hempty : "".length = 0 := rfl
  omega

/-- Every current version is loaded, and so is every version a thread is about to activate. -/
structure Ready (s : Watched ι V) : Prop where
  sound : s.manager.Sound
  activating : ∀ i last v, s.watchers i = .activating last v →
    v ≠ "" ∧ s.manager.Loaded (modelIds i) v

variable {modelIds}

omit [DecidableEq ι] in
/-- The calls that a step makes name their versions. -/
theorem Ready.named {s : Watched ι V} (h : Ready modelIds s) {a : Action ι V} (ha : a.Named)
    {op : HotReloadManager.Op V} (hop : s.managerCall modelIds a = some op) : op.Named := by
  cases a with
  | call op' => exact Option.some.inj hop ▸ ha
  | run i env =>
    unfold managerCall WatcherPc.call at hop
    dsimp only at hop
    cases hpc : s.watchers i with
    | loading last newModel =>
      rw [hpc] at hop
      rw [← Option.some.inj hop]
      exact versionStamp_ne_empty env.now
    | activating last version =>
      rw [hpc] at hop
      rw [← Option.some.inj hop]
      exact (h.activating i last version hpc).1
    | starting => rw [hpc] at hop; cases hop
    | sleeping last => rw [hpc] at hop; cases hop
    | reloading last => rw [hpc] at hop; cases hop
    | dead => rw [hpc] at hop; cases hop

/-- What a call keeps, a step keeps. -/
theorem manager_step {P : HotReloadManager V → Prop} {s : Watched ι V} {a : Action ι V}
    (hs : P s.manager)
    (hcall : ∀ op, s.managerCall modelIds a = some op → P (s.manager.step op)) :
    P (s.step modelIds a).manager := by
  unfold step
  dsimp only
  cases hop : s.managerCall modelIds a with
  | none => exact hs
  | some op => exact hcall op hop

theorem Ready.snoc {s : Watched ι V} (h : Ready modelIds s) {a : Action ι V} (ha : a.Named) :
    Ready modelIds (s.step modelIds a) := by
  refine ⟨manager_step h.sound fun op hop => h.sound.step (h.named ha hop), fun i last v hi => ?_⟩
  have hstay : s.watchers i = .activating last v →
      v ≠ "" ∧ (s.step modelIds a).manager.Loaded (modelIds i) v := by
    intro hold
    obtain ⟨hne, hloaded⟩ := h.activating i last v hold
    refine ⟨hne, manager_step (P := fun s => s.Loaded (modelIds i) v) hloaded fun op _ => ?_⟩
    exact HotReloadManager.loaded_step hloaded op
  cases a with
  | call op => exact hstay hi
  | run j env =>
    have hupdate : Function.update s.watchers j ((s.watchers j).next env) i =
        .activating last v := hi
    by_cases hij : i = j
    · subst hij
      rw [Function.update_self] at hupdate
      obtain ⟨newModel, hpc, rfl⟩ := WatcherPc.loading_of_next hupdate
      refine ⟨versionStamp_ne_empty env.now, ?_⟩
      have hcall : s.managerCall modelIds (.run i env) = some
          (.loadModel (modelIds i) (versionStamp env.now) (.ok newModel) env.loadedAt) := by
        unfold managerCall
        dsimp only
        rw [hpc]
        rfl
      unfold step
      dsimp only
      rw [hcall]
      show ((s.manager.loadModel _ _ (.ok newModel) env.loadedAt).2.models.get? _).isSome = true
      rw [HotReloadManager.get?_loadModel, if_pos rfl]
      rfl
    · rw [Function.update_of_ne hij] at hupdate
      exact hstay hupdate

theorem ready_run {tr : List (Action ι V)} (h : ∀ a ∈ tr, a.Named) :
    Ready modelIds (run (step modelIds) (init : Watched ι V) tr) := by
  induction tr using List.reverseRecOn with
  | nil =>
    refine ⟨?_, ?_⟩
    · intro m v hv
      cases hv
    · intro i last v hi
      cases hi
  | append_singleton tr a ih =>
    rw [run_snoc]
    exact (ih fun b hb => h b (List.mem_append_left _ hb)).snoc
      (h a (List.mem_append_right _ (List.mem_singleton.mpr rfl)))

omit [DecidableEq ι] in
theorem available_of_contains {s : Watched ι V} (h : Ready modelIds s) {m : String} :
    s.manager.Available m ↔ s.manager.currentVersions.contains m = true := h.sound.available_iff

theorem contains_run {s : Watched ι V} {m : String}
    (h : s.manager.currentVersions.contains m = true) (tr : List (Action ι V)) :
    (run (step modelIds) s tr).manager.currentVersions.contains m = true :=
  run_invariant (I := fun s : Watched ι V => s.manager.currentVersions.contains m = true) h
    (fun _ hs _ => manager_step (P := fun s => s.currentVersions.contains m = true) hs fun op _ =>
      HotReloadManager.contains_currentVersions_step hs op) tr

/-- **No downtime.** However the threads of any watchers and the callers interleave, whose calls name
their versions: a model that could be served once can be served ever after, what is served is what
was last loaded under the key of its current version, and the activation that ends a reload does
not raise and makes the reloaded version current. -/
theorem no_downtime {pre post : List (Action ι V)} (hnamed : ∀ a ∈ pre ++ post, a.Named)
    {m : String} (h : (run (step modelIds) init pre).manager.Available m) :
    let s := run (step modelIds) init (pre ++ post)
    s.manager.Available m ∧
    (s.manager.getCurrentModel m).1 = (s.manager.currentVersions.get? m).bind (fun v =>
      HotReloadManager.lastLoaded (managerCalls modelIds init (pre ++ post))
        (HotReloadManager.key m v)) ∧
    ∀ i last v, s.watchers i = .activating last v →
      (s.manager.activateVersion (modelIds i) v).1 = .ok () ∧
      ∀ env, (s.step modelIds (.run i env)).manager.currentVersions.get? (modelIds i) = some v := by
  intro s
  have hready : Ready modelIds s := ready_run hnamed
  have hpre : Ready modelIds (run (step modelIds) (init : Watched ι V) pre) :=
    ready_run fun a ha => hnamed a (List.mem_append_left _ ha)
  refine ⟨?_, ?_, fun i last v hi => ?_⟩
  · rw [available_of_contains hready]
    show (run (step modelIds) init (pre ++ post)).manager.currentVersions.contains m = true
    rw [run_append]
    exact contains_run ((available_of_contains hpre).mp h) post
  · have hmodel := HotReloadManager.model_run (managerCalls modelIds init (pre ++ post))
    have hrun := manager_run modelIds (init : Watched ι V) (pre ++ post)
    rw [show run HotReloadManager.step HotReloadManager.init _ = s.manager from hrun.symm] at hmodel
    rw [HotReloadManager.getCurrentModel_fst]
    unfold HotReloadManager.serving
    rw [Option.map_bind]
    refine Option.bind_congr fun v hv => ?_
    dsimp only [Function.comp_apply]
    rw [if_neg (hready.sound m v hv).1]
    exact hmodel _
  · have hloaded := (hready.activating i last v hi).2
    refine ⟨?_, fun env => ?_⟩
    · unfold HotReloadManager.Loaded at hloaded
      unfold HotReloadManager.activateVersion
      rw [if_pos hloaded]
    · have hcall : s.managerCall modelIds (.run i env) =
          some (.activateVersion (modelIds i) v) := by
        unfold managerCall
        dsimp only
        rw [hi]
        rfl
      unfold step
      dsimp only
      rw [hcall]
      show (s.manager.activateVersion (modelIds i) v).2.currentVersions.get? _ = _
      rw [HotReloadManager.currentVersions_activateVersion hloaded, Dict.get?_set, if_pos rfl]

/-- A caller loads the first version, and then the watcher reloads. -/
theorem no_downtime_reload :
    let noon : Datetime := ⟨2024, 5, 1, 12, 0, 0, 0⟩
    let load : Action Unit ℕ := .call (.loadModel "m" "v1" (.ok 1) noon)
    let reload : List (Action Unit ℕ) := [.run () ⟨.ok 10, .ok 2, noon, noon⟩,
      .run () ⟨.ok 20, .ok 2, noon, noon⟩, .run () ⟨.ok 20, .ok 2, noon, noon⟩,
      .run () ⟨.ok 20, .ok 2, noon, noon⟩]
    let s := run (step fun _ => "m") init ([load] ++ reload)
    s.watchers () = .activating 20 "20240501-120000" ∧ s.manager.Available "m" ∧
    (s.manager.getCurrentModel "m").1 = some 1 ∧
    (s.manager.activateVersion "m" "20240501-120000").1 = .ok () := by
  intro noon load reload s
  have hnamed : ∀ a ∈ [load] ++ reload, a.Named := by decide
  have hpc : s.watchers () = .activating 20 "20240501-120000" := by decide +kernel
  have hpre : (run (step fun _ => "m") init [load]).manager.Available "m" := by
    unfold HotReloadManager.Available
    decide +kernel
  obtain ⟨havailable, hmodel, hactivating⟩ := no_downtime hnamed hpre
  refine ⟨hpc, havailable, ?_, (hactivating () _ _ hpc).1⟩
  rw [hmodel]
  decide +kernel

/-! ## When a thread reloads -/

/-- How often a number is larger than all before it, on a history with the newest number first. The
first number counts for none. -/
def records : List ℚ → ℕ
  | [] => 0
  | t :: past => records past + if past ≠ [] ∧ ∀ u ∈ past, u < t then 1 else 0

/-- The largest number of a history. -/
def Newest (t : ℚ) (past : List ℚ) : Prop := t ∈ past ∧ ∀ u ∈ past, u ≤ t

theorem Newest.records_of_lt {last t : ℚ} {past : List ℚ} (h : Newest last past) (ht : last < t) :
    records (t :: past) = records past + 1 ∧ Newest t (t :: past) := by
  have hlt : ∀ u ∈ past, u < t := fun u hu => (h.2 u hu).trans_lt ht
  refine ⟨?_, List.mem_cons_self, fun u hu => ?_⟩
  · rw [records, if_pos ⟨List.ne_nil_of_mem h.1, hlt⟩]
  · rcases List.mem_cons.mp hu with rfl | hu
    · exact le_rfl
    · exact (hlt u hu).le

theorem Newest.records_of_not_lt {last t : ℚ} {past : List ℚ} (h : Newest last past)
    (ht : ¬last < t) : records (t :: past) = records past ∧ Newest last (t :: past) := by
  refine ⟨?_, List.mem_cons_of_mem t h.1, fun u hu => ?_⟩
  · rw [records, if_neg fun hall => ht (hall.2 last h.1), Nat.add_zero]
  · rcases List.mem_cons.mp hu with rfl | hu
    · exact not_lt.mp ht
    · exact h.2 u hu

end Watched

namespace HotReloadManager

variable {V : Type*}

/-- The object and the version that a call loads. -/
def Op.loads : Op V → Option (V × String)
  | .loadModel _ version (.ok obj) _ => some (obj, version)
  | .loadModel _ _ (.error _) _ => none
  | .activateVersion _ _ => none
  | .getCurrentModel _ => none
  | .getModelStatus _ => none

/-- The version that a call activates. -/
def Op.activates : Op V → Option String
  | .activateVersion _ version => some version
  | .loadModel _ _ _ _ => none
  | .getCurrentModel _ => none
  | .getModelStatus _ => none

end HotReloadManager

namespace WatcherPc

variable {V : Type*}

/-- The `last_mtime` of the thread. -/
def lastMtime : WatcherPc V → Option ℚ
  | .sleeping lastMtime => some lastMtime
  | .reloading lastMtime => some lastMtime
  | .loading lastMtime _ => some lastMtime
  | .activating lastMtime _ => some lastMtime
  | .starting => none
  | .dead => none

/-- How many calls of `reload_callback` the thread is about to make. -/
def due : WatcherPc V → ℕ
  | .reloading _ => 1
  | .starting => 0
  | .sleeping _ => 0
  | .loading _ _ => 0
  | .activating _ _ => 0
  | .dead => 0

/-- The model that the thread has and that is not loaded yet. -/
def toLoad : WatcherPc V → List V
  | .loading _ newModel => [newModel]
  | .starting => []
  | .sleeping _ => []
  | .reloading _ => []
  | .activating _ _ => []
  | .dead => []

/-- The version that the thread has loaded and that is not activated yet. -/
def toActivate : WatcherPc V → List String
  | .activating _ version => [version]
  | .starting => []
  | .sleeping _ => []
  | .reloading _ => []
  | .loading _ _ => []
  | .dead => []

/-- A thread at `pc` that read the modification times `past`, the newest first, saw its calls of
`reload_callback` end as `ends` and made the calls `calls` on the manager. -/
structure Tracks (pc : WatcherPc V) (past : List ℚ) (ends : List (Except Exn V))
    (calls : List (HotReloadManager.Op V)) : Prop where
  starting : pc = .starting → past = []
  newest : ∀ last, pc.lastMtime = some last → Watched.Newest last past
  count : ends.length + pc.due = Watched.records past
  loads : (calls.filterMap HotReloadManager.Op.loads).map Prod.fst ++ pc.toLoad =
    ends.filterMap Except.toOption
  activates : calls.filterMap HotReloadManager.Op.activates ++ pc.toActivate =
    (calls.filterMap HotReloadManager.Op.loads).map Prod.snd

attribute [local simp] reads reloads call lastMtime due toLoad toActivate Except.toOption
  HotReloadManager.Op.loads HotReloadManager.Op.activates

theorem Tracks.snoc {pc : WatcherPc V} {past : List ℚ} {ends : List (Except Exn V)}
    {calls : List (HotReloadManager.Op V)} (h : pc.Tracks past ends calls) (modelId : String)
    (env : Surroundings V) :
    (pc.next env).Tracks ((pc.reads env).reverse ++ past) (ends ++ pc.reloads env)
      (calls ++ (pc.call modelId env).toList) := by
  obtain ⟨hstarting, hnewest, hcount, hloads, hactivates⟩ := h
  obtain ⟨mtime, newModel, now, loadedAt⟩ := env
  cases pc with
  | dead => constructor <;> simp_all [next]
  | starting =>
    obtain rfl := hstarting rfl
    cases mtime with
    | error e => constructor <;> simp_all [next]
    | ok t =>
      have hone : Watched.Newest t [t] := by simp [Watched.Newest]
      constructor <;> simp_all [next, Watched.records]
  | sleeping last =>
    have hlast := hnewest last rfl
    rcases mtime with (e | e) | t
    · constructor <;> simp_all [next]
    · constructor <;> simp_all [next]
    · by_cases ht : last < t
      · obtain ⟨hrecord, hnew⟩ := hlast.records_of_lt ht
        have hnext : (sleeping last).next ⟨.ok t, newModel, now, loadedAt⟩ = .reloading t :=
          if_pos ht
        rw [hnext]
        constructor <;> simp_all
      · obtain ⟨hrecord, hold⟩ := hlast.records_of_not_lt ht
        have hnext : (sleeping last).next ⟨.ok t, newModel, now, loadedAt⟩ = .sleeping last :=
          if_neg ht
        rw [hnext]
        constructor <;> simp_all
  | reloading last =>
    rcases newModel with (e | e) | obj <;> constructor <;> simp_all [next]
  | loading last obj => constructor <;> simp_all [next]
  | activating last version => constructor <;> simp_all [next]

end WatcherPc

namespace Watched

variable {ι V ε : Type*} [DecidableEq ι]

/-- What thread `i` does in a step, read off where it is. -/
def own (i : ι) (emit : WatcherPc V → Surroundings V → List ε) (s : Watched ι V) :
    Action ι V → List ε
  | .call _ => []
  | .run j env => if j = i then emit (s.watchers i) env else []

variable (modelIds : ι → String) (i : ι) (tr : List (Action ι V))

/-- The modification times thread `i` read in a history, the newest first. -/
def mtimes : List ℚ := (log (step modelIds) (own i WatcherPc.reads) init tr).reverse

/-- How the calls of `reload_callback` ended that thread `i` made in a history. -/
def reloadsOf : List (Except Exn V) := log (step modelIds) (own i WatcherPc.reloads) init tr

/-- The calls that thread `i` made on the manager in a history. -/
def callsOf : List (HotReloadManager.Op V) :=
  log (step modelIds) (own i fun pc env => (pc.call (modelIds i) env).toList) init tr

theorem tracks_run : ((run (step modelIds) init tr).watchers i).Tracks (mtimes modelIds i tr)
    (reloadsOf modelIds i tr) (callsOf modelIds i tr) := by
  unfold mtimes reloadsOf callsOf
  induction tr using List.reverseRecOn with
  | nil => exact ⟨fun _ => rfl, nofun, rfl, rfl, rfl⟩
  | append_singleton tr a ih =>
    rw [log_snoc, log_snoc, log_snoc, run_snoc, List.reverse_append]
    generalize run (step modelIds) init tr = s at ih ⊢
    cases a with
    | call op => simpa [own, step] using ih
    | run j env =>
      by_cases hj : j = i
      · subst hj
        simpa [own, step] using ih.snoc (modelIds j) env
      · simpa [own, step, hj, Function.update_of_ne (Ne.symm hj)] using ih

/-- **Reloads.** However the threads of any watchers and the callers interleave, a thread has called
`reload_callback` once for each modification time it read that was later than all it read before
(the one it is about to make is counted in), it has loaded the models those calls returned, in
order, and activated the versions it loaded, in order, but for the one it is at. -/
theorem reloads_on_record (tr : List (Action ι V)) (i : ι) :
    let pc := (run (step modelIds) init tr).watchers i
    (reloadsOf modelIds i tr).length + pc.due = records (mtimes modelIds i tr) ∧
    ((callsOf modelIds i tr).filterMap HotReloadManager.Op.loads).map Prod.fst ++ pc.toLoad =
      (reloadsOf modelIds i tr).filterMap Except.toOption ∧
    (callsOf modelIds i tr).filterMap HotReloadManager.Op.activates ++ pc.toActivate =
      ((callsOf modelIds i tr).filterMap HotReloadManager.Op.loads).map Prod.snd := by
  have h := tracks_run modelIds i tr
  exact ⟨h.count, h.loads, h.activates⟩

end Watched

end PyStreamAI
